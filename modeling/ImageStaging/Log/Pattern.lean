import ImageStaging.Text.Alphanumeric

/-!
# Patterns for field values

A filter may give a pattern for the value of a field. No event is ever matched against one, but a
filter with a pattern that is not well formed is no filter. Patterns have groups, alternatives,
sets of characters, repetitions and escapes; they cannot look around or refer back, and they know
nothing of word boundaries.
-/

namespace ImageStaging.Log.Pattern

/-- What one item of a pattern stands for. -/
inductive Item
  | character (c : Char)
  | set
  | position
  deriving DecidableEq

def hexDigit? (c : Char) : Option Nat :=
  if c.isDigit then some (c.toNat - '0'.toNat)
  else if 'a' ≤ c.toLower && c.toLower ≤ 'f' then some (c.toLower.toNat - 'a'.toNat + 10)
  else none

/-- The character whose code has exactly this many hexadecimal digits. -/
def coded? (count : Nat) (text : Text) : Option (Item × Text) := do
  let digits := text.take count
  if digits.length < count then none
  let code ← digits.foldlM (fun code c => (hexDigit? c).map (code * 16 + ·)) 0
  if code.isValidChar then some (.character (Char.ofNat code), text.drop count) else none

/-- The letters of the general categories of characters. -/
def categories : List Char :=
  ['C', 'L', 'M', 'N', 'P', 'S', 'Z']

/-- The item that begins with a backslash, which has been read. -/
def escape? : Text → Option (Item × Text)
  | [] => none
  | c :: rest =>
    match c with
    | 'x' => coded? 2 rest
    | 'u' => coded? 4 rest
    | 'U' => coded? 8 rest
    | 'd' | 'D' | 's' | 'S' | 'w' | 'W' => some (.set, rest)
    | 'p' | 'P' =>
      match rest with
      | category :: rest => if categories.contains category.toUpper then some (.set, rest) else none
      | [] => none
    | 'A' | 'z' => some (.position, rest)
    | 'a' => some (.character '\x07', rest)
    | 't' => some (.character '\t', rest)
    | 'n' => some (.character '\n', rest)
    | 'v' => some (.character '\x0B', rest)
    | 'f' => some (.character '\x0C', rest)
    | 'r' => some (.character '\r', rest)
    | '<' | '>' => none
    | _ => if c.toNat < 0x80 && !c.isAlphanum then some (.character c, rest) else none

/-- One item inside a set. -/
def member? : Text → Option (Item × Text)
  | '\\' :: rest => escape? rest
  | c :: rest => some (.character c, rest)
  | [] => none

/-- The names of sets inside sets, as in `[[:alpha:]]`. -/
def namedSets : List String :=
  ["alnum", "alpha", "ascii", "blank", "cntrl", "digit", "graph", "lower", "print", "punct",
    "space", "upper", "word", "xdigit"]

/-- The text behind a named set, whose bracket has been read. -/
def afterNamedSet? : Text → Option Text
  | ':' :: rest =>
    let rest := if rest.head? = some '^' then rest.drop 1 else rest
    let name := rest.takeWhile (· ≠ ':')
    if [':', ']'].isPrefixOf (rest.drop name.length) && namedSets.contains (String.ofList name) then
      some (rest.drop (name.length + 2))
    else none
  | _ => none

/-- Past what has no other meaning at the beginning of a set: dashes, or else a closing bracket. -/
def afterSetStart (text : Text) : Text :=
  let text := if text.head? = some '^' then text.drop 1 else text
  match text with
  | ']' :: rest => rest
  | _ => text.dropWhile (· = '-')

/-- Past two items with a dash between them, or past one. -/
def afterMember? (text : Text) : Option Text := do
  let (first, rest) ← member? text
  if rest.head? = some '-' && rest[1]? ≠ some ']' && rest[1]? ≠ some '-' then
    let (last, rest) ← member? (rest.drop 1)
    match first, last with
    | .character first, .character last => if first ≤ last then some rest else none
    | _, _ => none
  else if first = .position then none
  else some rest

/-- The text behind some open sets. -/
def afterSets? : Nat → Nat → Text → Option Text
  | 0, _, _ => none
  | fuel + 1, depth, text =>
    match text with
    | ']' :: rest => if depth ≤ 1 then some rest else afterSets? fuel (depth - 1) rest
    | '[' :: rest =>
      match afterNamedSet? rest with
      | some rest => afterSets? fuel depth rest
      | none => afterSets? fuel (depth + 1) (afterSetStart rest)
    | '&' :: '&' :: rest | '-' :: '-' :: rest | '~' :: '~' :: rest => afterSets? fuel depth rest
    | _ => (afterMember? text).bind (afterSets? fuel depth)

/-- Whether the letters before the end of a head of flags are flags, each given once. One dash may
stand before some of them. -/
def areFlags (letters : Text) : Bool :=
  let flags := letters.filter (· ≠ '-')
  flags.all ['i', 'm', 's', 'U', 'u', 'R', 'x'].contains && flags.Nodup &&
    letters.count '-' ≤ 1 && letters.getLast? ≠ some '-'

def isNameStart (c : Char) : Bool :=
  c = '_' || Text.isAlphanumeric c && !c.isDigit

def isNamePart (c : Char) : Bool :=
  c = '_' || c = '.' || c = '[' || c = ']' || Text.isAlphanumeric c

/-- The head of a group. -/
inductive Head
  | unnamed
  | named (name : Text)
  /-- Flags for the rest of the group around them, which open no group of their own. -/
  | flags
  deriving DecidableEq

/-- The head of a group, whose parenthesis has been read, and the text behind it. -/
def head? : Text → Option (Head × Text)
  | '?' :: 'P' :: '<' :: rest | '?' :: '<' :: rest =>
    let name := rest.takeWhile (· ≠ '>')
    if name.head?.any isNameStart && name.all isNamePart && name.length < rest.length then
      some (.named name, rest.drop (name.length + 1))
    else none
  | '?' :: rest =>
    let letters := rest.takeWhile fun c => c ≠ ':' && c ≠ ')'
    let rest := rest.drop letters.length
    if !areFlags letters then none
    else if rest.head? = some ':' then some (.unnamed, rest.drop 1)
    else if rest.head? = some ')' && letters ≠ [] then some (.flags, rest.drop 1)
    else none
  | rest => some (.unnamed, rest)

/-- Whether the rest of a pattern is well formed inside some open groups, after groups of the given
names. What stands before it may be repeated or not. -/
def isRest : Nat → Nat → List Text → Bool → Text → Bool
  | 0, _, _, _, _ => false
  | _, depth, _, _, [] => depth = 0
  | fuel + 1, depth, names, repeatable, c :: rest =>
    match c with
    | '(' =>
      match head? rest with
      | some (.unnamed, rest) => isRest fuel (depth + 1) names false rest
      | some (.named name, rest) =>
        !names.contains name && isRest fuel (depth + 1) (name :: names) false rest
      | some (.flags, rest) => isRest fuel depth names false rest
      | none => false
    | ')' => 0 < depth && isRest fuel (depth - 1) names true rest
    | '|' => isRest fuel depth names false rest
    | '*' | '+' | '?' =>
      repeatable &&
        isRest fuel depth names true (if rest.head? = some '?' then rest.drop 1 else rest)
    | '\x7B' => false
    | '[' => (afterSets? (rest.length + 1) 1 (afterSetStart rest)).any (isRest fuel depth names true)
    | '\\' => (escape? rest).any fun (_, rest) => isRest fuel depth names true rest
    | _ => isRest fuel depth names true rest

/-- A number after a plus sign, which is a value and not a pattern. -/
def isSignedNumber : Text → Bool
  | '+' :: number =>
    let isWhole (digits : Text) : Bool := digits ≠ [] && digits.all Char.isDigit
    let (mantissa, exponent) := number.span fun c => c ≠ 'e' && c ≠ 'E'
    let power := exponent.drop 1
    let unsigned :=
      if power.head? = some '+' || power.head? = some '-' then power.drop 1 else power
    ["inf", "infinity", "nan"].contains (String.ofList number).toLower ||
      isWhole (mantissa.eraseP (· = '.')) && (exponent = [] || isWhole unsigned)
  | _ => false

/-- Whether a text may stand for the value of a field. -/
def isWellFormed (text : Text) : Bool :=
  isSignedNumber text || isRest (text.length + 1) 0 [] false text

end ImageStaging.Log.Pattern
