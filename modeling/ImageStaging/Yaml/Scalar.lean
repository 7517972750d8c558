import ImageStaging.Yaml.Cursor

/-!
# Scalars of a YAML text

Scalars may go on over several lines. In plain and quoted scalars one line break becomes a space
and more of them lose the first; block scalars keep their lines or fold them by a rule of their
own. The recursions below take at least one character in each step, so the length of the text that
is left bounds them.
-/

namespace ImageStaging.Yaml

/-- The blanks and line breaks between two pieces of a scalar. -/
structure Gap where
  spaces : Text := []
  broken : Bool := false
  firstBreak : Text := []
  moreBreaks : Text := []

namespace Gap

/-- The first of several line breaks is lost, and a single one is a space. -/
def fold (firstBreak moreBreaks : Text) : Text :=
  if firstBreak = ['\n'] then (if moreBreaks = [] then [' '] else moreBreaks)
  else firstBreak ++ moreBreaks

def text (gap : Gap) : Text :=
  if gap.broken then fold gap.firstBreak gap.moreBreaks else gap.spaces

/-- Reads a gap. A tab left of `indentation` at the start of a line is a fault. -/
def read (indentation : Nat) : Nat → Cursor → Gap → Result (Gap × Cursor)
  | 0, cursor, gap => .ok (gap, cursor)
  | fuel + 1, cursor, gap =>
    match cursor.peek with
    | none => .ok (gap, cursor)
    | some c =>
      if isBlank c then
        if gap.broken then
          if c = '\t' && cursor.column < indentation then
            .error "found a tab character that violates indentation"
          else read indentation fuel (cursor.skip 1) gap
        else read indentation fuel (cursor.skip 1) { gap with spaces := gap.spaces ++ [c] }
      else if isBreak c then
        let next := cursor.skipBreak
        if gap.broken then
          read indentation fuel next { gap with moreBreaks := gap.moreBreaks ++ cursor.breakText }
        else
          read indentation fuel next { broken := true, firstBreak := cursor.breakText }
      else .ok (gap, cursor)

end Gap

/-- The characters that a backslash and one character stand for. -/
def escapeOf (c : Char) : Option Char :=
  match c with
  | '0' => some '\x00'
  | 'a' => some '\x07'
  | 'b' => some '\x08'
  | 't' | '\t' => some '\t'
  | 'n' => some '\n'
  | 'v' => some '\x0B'
  | 'f' => some '\x0C'
  | 'r' => some '\r'
  | 'e' => some '\x1B'
  | ' ' => some ' '
  | '\x22' => some '\x22'
  | '/' => some '/'
  | '\\' => some '\\'
  | 'N' => some '\u0085'
  | '_' => some '\u00A0'
  | 'L' => some '\u2028'
  | 'P' => some '\u2029'
  | _ => none

/-- How many hexadecimal digits follow the letter of an escape. -/
def escapeDigits (c : Char) : Option Nat :=
  match c with
  | 'x' => some 2
  | 'u' => some 4
  | 'U' => some 8
  | _ => none

def hexValue? (c : Char) : Option Nat :=
  if '0' ≤ c && c ≤ '9' then some (c.toNat - 48)
  else if 'a' ≤ c && c ≤ 'f' then some (c.toNat - 87)
  else if 'A' ≤ c && c ≤ 'F' then some (c.toNat - 55)
  else none

def hexNumber? (digits : Text) : Option Nat :=
  digits.foldlM (fun value c => (hexValue? c).map (value * 16 + ·)) 0

/-- The character of an escape, whose backslash the cursor stands on. -/
def readEscape (cursor : Cursor) : Result (Char × Cursor) :=
  match cursor.peekAt 1 with
  | none => .error "found unknown escape character"
  | some letter =>
    match escapeOf letter, escapeDigits letter with
    | some c, _ => .ok (c, cursor.skip 2)
    | none, none => .error "found unknown escape character"
    | none, some count =>
      let digits := (cursor.rest.drop 2).take count
      match hexNumber? digits with
      | some value =>
        if digits.length < count then .error "did not find expected hexdecimal number"
        else if value.isValidChar then .ok (Char.ofNat value, cursor.skip (2 + count))
        else .error "found invalid Unicode character escape code"
      | none => .error "did not find expected hexdecimal number"

inductive Quote
  | single
  | double
  deriving DecidableEq

def Quote.mark : Quote → Char
  | .single => '\x27'
  | .double => '\x22'

/-- The rest of a quoted scalar, whose characters so far are given in reverse. -/
def readQuoted (quote : Quote) : Nat → Cursor → Text → Result (Text × Cursor)
  | 0, _, _ => .error "found unexpected end of stream"
  | fuel + 1, cursor, reversed =>
    if cursor.atDocumentMark then .error "found unexpected document indicator"
    else match cursor.peek with
    | none => .error "found unexpected end of stream"
    | some c =>
      if isSpace c then do
        let (gap, next) ← Gap.read 0 cursor.rest.length cursor {}
        readQuoted quote fuel next (gap.text.reverse ++ reversed)
      else if quote = .single && cursor.startsWith ['\x27', '\x27'] then
        readQuoted quote fuel (cursor.skip 2) ('\x27' :: reversed)
      else if c = quote.mark then .ok (reversed.reverse, cursor.skip 1)
      else if quote = .double && c = '\\' then
        if (cursor.peekAt 1).any isBreak then do
          let (gap, next) ←
            Gap.read 0 cursor.rest.length (cursor.skip 1).skipBreak { broken := true }
          readQuoted quote fuel next (gap.text.reverse ++ reversed)
        else do
          let (escaped, next) ← readEscape cursor
          readQuoted quote fuel next (escaped :: reversed)
      else readQuoted quote fuel (cursor.skip 1) (c :: reversed)

def isFlowIndicator (c : Char) : Bool :=
  c = ',' || c = '[' || c = ']' || c = '\x7B' || c = '\x7D'

/-- The rest of a plain scalar and whether a line break ended it. A gap belongs to the scalar only
if more of it follows. -/
def readPlain (inFlow : Bool) (indentation : Nat) :
    Nat → Cursor → Text → Option Gap → Result (Text × Bool × Cursor)
  | 0, cursor, reversed, _ => .ok (reversed.reverse, false, cursor)
  | fuel + 1, cursor, reversed, gap =>
    let finish : Result (Text × Bool × Cursor) :=
      .ok (reversed.reverse, gap.any (·.broken), cursor)
    if gap.isSome && (cursor.atDocumentMark || cursor.at? '#') then finish
    else match cursor.peek with
    | none => finish
    | some c =>
      if isSpace c then do
        let (gap, next) ← Gap.read indentation cursor.rest.length cursor {}
        if !inFlow && next.column < indentation then
          .ok (reversed.reverse, gap.broken, next)
        else readPlain inFlow indentation fuel next reversed (some gap)
      else if inFlow && c = ':' &&
          (cursor.peekAt 1).any (fun next => isFlowIndicator next || next = '?') then
        .error "found unexpected ':'"
      else if (c = ':' && cursor.spaceAt 1) || (inFlow && isFlowIndicator c) then finish
      else
        let before := (gap.map Gap.text).getD []
        readPlain inFlow indentation fuel (cursor.skip 1) (c :: before.reverse ++ reversed) none

/-- What becomes of the line breaks at the end of a block scalar. -/
inductive Chomping
  | strip
  | clip
  | keep
  deriving DecidableEq

def Chomping.ofChar? (c : Char) : Option Chomping :=
  if c = '+' then some .keep else if c = '-' then some .strip else none

/-- The line breaks before the next line of a block scalar. While the indentation is not known, the
widest of the blank lines is noted. -/
def readBlockBreaks (indentation : Option Nat) :
    Nat → Cursor → Nat → Text → Result (Text × Nat × Cursor)
  | 0, cursor, widest, breaks => .ok (breaks, widest, cursor)
  | fuel + 1, cursor, widest, breaks =>
    let spaces := (cursor.rest.takeWhile (· = ' ')).length
    let cursor := cursor.skip <|
      match indentation with
      | some width => min spaces (width - cursor.column)
      | none => spaces
    let widest := max widest cursor.column
    if cursor.at? '\t' && indentation.all (cursor.column < ·) then
      .error "found a tab character where an indentation space is expected"
    else if cursor.peek.any isBreak then
      readBlockBreaks indentation fuel cursor.skipBreak widest (breaks ++ cursor.breakText)
    else .ok (breaks, widest, cursor)

/-- The lines of a block scalar. `lastBreak` ended the line before, `breaks` are those of the blank
lines after it, and `wasBlank` says whether that line began with a blank. -/
def readBlockLines (literal : Bool) (chomping : Chomping) (indentation : Nat) :
    Nat → Cursor → Text → Text → Text → Bool → Result (Text × Cursor)
  | 0, cursor, text, _, _, _ => .ok (text, cursor)
  | fuel + 1, cursor, text, lastBreak, breaks, wasBlank => do
    if cursor.column = indentation && cursor.peek.isSome then
      let isBlankLine := cursor.peek.any isBlank
      let joint :=
        if !literal && lastBreak = ['\n'] && !wasBlank && !isBlankLine then
          (if breaks = [] then [' '] else [])
        else lastBreak
      let (line, atBreak) := cursor.span (fun _ => true)
      let next := if atBreak.peek.isSome then atBreak.skipBreak else atBreak
      let (moreBreaks, _, next) ←
        readBlockBreaks (some indentation) (next.rest.length + 1) next 0 []
      readBlockLines literal chomping indentation fuel next (text ++ joint ++ breaks ++ line)
        atBreak.breakText moreBreaks isBlankLine
    else
      let ending :=
        match chomping with
        | .strip => []
        | .clip => lastBreak
        | .keep => lastBreak ++ breaks
      .ok (text ++ ending, cursor)

def digit? (c : Char) : Option Nat :=
  if c.isDigit then some (c.toNat - 48) else none

/-- The chomping and the indentation that the head of a block scalar may give, in either order. -/
def readBlockHead (cursor : Cursor) : Result (Chomping × Option Nat × Cursor) := do
  let readIncrement (cursor : Cursor) : Result (Option Nat × Cursor) :=
    match cursor.peek.bind digit? with
    | some 0 => .error "found an indentation indicator equal to 0"
    | some value => .ok (some value, cursor.skip 1)
    | none => .ok (none, cursor)
  match cursor.peek.bind Chomping.ofChar? with
  | some chomping =>
    let (increment, cursor) ← readIncrement (cursor.skip 1)
    pure (chomping, increment, cursor)
  | none =>
    match ← readIncrement cursor with
    | (none, cursor) => pure (.clip, none, cursor)
    | (some value, cursor) =>
      match cursor.peek.bind Chomping.ofChar? with
      | some chomping => pure (chomping, some value, cursor.skip 1)
      | none => pure (.clip, some value, cursor)

/-- A block scalar, whose indicator the cursor stands on. `parent` is the column of the collection
that holds it, if there is one. -/
def readBlock (literal : Bool) (parent : Option Nat) (start : Cursor) : Result (Text × Cursor) := do
  let (chomping, increment, cursor) ← readBlockHead (start.skip 1)
  let cursor := (cursor.skipWhile isBlank).skipComment
  unless cursor.peek.all isBreak do
    throw "did not find expected comment or line break"
  let cursor := if cursor.peek.isSome then cursor.skipBreak else cursor
  let given := increment.map (parent.getD 0 + ·)
  let (breaks, widest, cursor) ← readBlockBreaks given (cursor.rest.length + 1) cursor 0 []
  let least := (parent.map (· + 1)).getD 1
  let indentation := given.getD (max widest least)
  readBlockLines literal chomping indentation (cursor.rest.length + 1) cursor [] [] breaks false

end ImageStaging.Yaml
