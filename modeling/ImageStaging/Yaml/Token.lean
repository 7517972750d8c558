import ImageStaging.Yaml.Scalar

/-!
# Tokens of a YAML text

Indentation becomes tokens for the start and end of block collections. A key is only known as one
when its colon comes, so the lexer remembers where a key could have begun on each level of nesting
and puts the key token, and the start of a block mapping, back at that place.
-/

namespace ImageStaging.Yaml

inductive Token
  | streamEnd
  | versionDirective (major minor : Nat)
  | tagDirective (handle : Text)
  | documentStart
  | documentEnd
  | blockSequenceStart
  | blockMappingStart
  | blockEnd
  | flowSequenceStart
  | flowSequenceEnd
  | flowMappingStart
  | flowMappingEnd
  | blockEntry
  | flowEntry
  | key
  | value
  | alias (name : Text)
  | anchor (name : Text)
  | tag (handle : Text)
  | scalar (text : Text) (plain : Bool)
  deriving DecidableEq

/-- A place where a key may have begun. It is required if nothing else could stand there. -/
structure KeyCandidate where
  position : Nat
  line : Nat
  column : Nat
  index : Nat
  required : Bool

structure Lexer where
  cursor : Cursor
  tokens : List Token := []
  /-- The columns of the open block collections, the innermost first. -/
  indents : List Nat := []
  /-- The candidate on each level of flow nesting, the innermost first, and on the block level. -/
  candidates : List (Option KeyCandidate) := [none]
  keyAllowed : Bool := true

namespace Lexer

def inFlow (lexer : Lexer) : Bool :=
  1 < lexer.candidates.length

def emit (lexer : Lexer) (token : Token) : Lexer :=
  { lexer with tokens := lexer.tokens ++ [token] }

def emitAt (lexer : Lexer) (position : Nat) (token : Token) : Lexer :=
  { lexer with tokens := lexer.tokens.insertIdx position token }

def allowKey (lexer : Lexer) (allowed : Bool) : Lexer :=
  { lexer with keyAllowed := allowed }

def skip (lexer : Lexer) (count : Nat) : Lexer :=
  { lexer with cursor := lexer.cursor.skip count }

def moveTo (lexer : Lexer) (cursor : Cursor) : Lexer :=
  { lexer with cursor := cursor }

/-- To the next token, past blanks, comments and line breaks. A tab is blank only where it cannot
be taken for indentation, and a byte order mark only at the beginning of a line. -/
def skipBlanks : Nat → Lexer → Lexer
  | 0, lexer => lexer
  | fuel + 1, lexer =>
    let cursor := lexer.cursor.skipOrderMark.skipWhile fun c =>
      c = ' ' || (c = '\t' && (lexer.inFlow || !lexer.keyAllowed))
    let cursor := cursor.skipComment
    if cursor.peek.any isBreak then
      skipBlanks fuel
        { lexer with
          cursor := cursor.skipBreak
          keyAllowed := lexer.keyAllowed || !lexer.inFlow }
    else lexer.moveTo cursor

def missingColon : String :=
  "could not find expected ':'"

/-- A key and its colon stand on one line, at most 1024 bytes apart. -/
def KeyCandidate.isStale (candidate : KeyCandidate) (cursor : Cursor) : Bool :=
  candidate.line < cursor.line || candidate.index + 1024 < cursor.index

def dropStale (lexer : Lexer) : Result Lexer := do
  let candidates ← lexer.candidates.mapM fun candidate =>
    match candidate with
    | some found =>
      if KeyCandidate.isStale found lexer.cursor then
        if found.required then throw missingColon else pure none
      else pure (some found)
    | none => pure none
  pure { lexer with candidates := candidates }

/-- Gives up the candidate on the innermost level. -/
def dropCandidate (lexer : Lexer) : Result Lexer :=
  match lexer.candidates with
  | some found :: others =>
    if found.required then .error missingColon
    else .ok { lexer with candidates := none :: others }
  | _ => .ok lexer

/-- Notes that a key may begin here. -/
def noteCandidate (lexer : Lexer) : Result Lexer := do
  if lexer.keyAllowed then
    let cleared ← lexer.dropCandidate
    let candidate : KeyCandidate :=
      { position := lexer.tokens.length
        line := lexer.cursor.line
        column := lexer.cursor.column
        index := lexer.cursor.index
        required := !lexer.inFlow && lexer.indents.head? = some lexer.cursor.column }
    pure { cleared with candidates := some candidate :: cleared.candidates.drop 1 }
  else pure lexer

def isDeeper (lexer : Lexer) (column : Nat) : Bool :=
  match lexer.indents with
  | innermost :: _ => innermost < column
  | [] => true

/-- Opens a block collection at a column right of the innermost one. -/
def openBlock (lexer : Lexer) (column position : Nat) (token : Token) : Lexer :=
  if !lexer.inFlow && lexer.isDeeper column then
    { lexer.emitAt position token with indents := column :: lexer.indents }
  else lexer

/-- Closes the block collections right of a column, or all of them. -/
def closeBlocks (lexer : Lexer) (column : Option Nat) : Lexer :=
  if lexer.inFlow then lexer
  else
    let isClosed := fun indent => column.all (· < indent)
    let closed := lexer.indents.takeWhile isClosed
    { lexer with
      indents := lexer.indents.dropWhile isClosed
      tokens := lexer.tokens ++ closed.map fun _ => Token.blockEnd }

/-- A mark that belongs to the whole document ends everything that is open. -/
def atDocumentLevel (lexer : Lexer) : Result Lexer := do
  let cleared ← (lexer.closeBlocks none).dropCandidate
  pure (cleared.allowKey false)

def readFlowStart (lexer : Lexer) (token : Token) : Result Lexer := do
  let noted ← lexer.noteCandidate
  pure { (noted.skip 1).emit token with
    candidates := none :: noted.candidates
    keyAllowed := true }

def readFlowEnd (lexer : Lexer) (token : Token) : Result Lexer := do
  let cleared ← lexer.dropCandidate
  let candidates :=
    match cleared.candidates with
    | _ :: outer :: others => outer :: others
    | candidates => candidates
  pure { (cleared.skip 1).emit token with candidates := candidates, keyAllowed := false }

def readFlowEntry (lexer : Lexer) : Result Lexer := do
  let cleared ← lexer.dropCandidate
  pure (((cleared.allowKey true).skip 1).emit .flowEntry)

def openHere (lexer : Lexer) (token : Token) (complaint : String) : Result Lexer :=
  if lexer.inFlow then .ok lexer
  else if lexer.keyAllowed then
    .ok (lexer.openBlock lexer.cursor.column lexer.tokens.length token)
  else .error complaint

def readBlockEntry (lexer : Lexer) : Result Lexer := do
  let opened ← lexer.openHere .blockSequenceStart
    "block sequence entries are not allowed in this context"
  let cleared ← opened.dropCandidate
  pure (((cleared.allowKey true).skip 1).emit .blockEntry)

def readKey (lexer : Lexer) : Result Lexer := do
  let opened ← lexer.openHere .blockMappingStart "mapping keys are not allowed in this context"
  let cleared ← opened.dropCandidate
  pure (((cleared.allowKey (!lexer.inFlow)).skip 1).emit .key)

def readValue (lexer : Lexer) : Result Lexer := do
  match lexer.candidates with
  | some found :: others =>
    let keyed := { lexer.emitAt found.position .key with candidates := none :: others }
    let opened := keyed.openBlock found.column found.position .blockMappingStart
    pure (((opened.allowKey false).skip 1).emit .value)
  | _ =>
    let opened ← lexer.openHere .blockMappingStart "mapping values are not allowed in this context"
    pure (((opened.allowKey (!lexer.inFlow)).skip 1).emit .value)

/-- An anchor or an alias. -/
def readAnchor (lexer : Lexer) (token : Text → Token) : Result Lexer := do
  let noted ← lexer.noteCandidate
  let (name, cursor) := (noted.cursor.skip 1).span isWord
  let isEnd (c : Char) : Bool :=
    isSpace c || c = '?' || c = ':' || c = ',' || c = ']' || c = '\x7D' || c = '%' || c = '@' ||
      c = '\x60'
  if name = [] || !cursor.peek.all isEnd then
    throw "did not find expected alphabetic or numeric character"
  pure (((noted.moveTo cursor).allowKey false).emit (token name))

def isTagCharacter (enclosed : Bool) (c : Char) : Bool :=
  isWord c || ";/?:@&=+$.!~*'()%".toList.contains c ||
    (enclosed && (c = ',' || c = '[' || c = ']'))

/-- How many bytes follow the first byte of a character. -/
def continuations? (first : Nat) : Option Nat :=
  if first < 0x80 then some 0
  else if first < 0xC0 then none
  else if first < 0xE0 then some 1
  else if first < 0xF0 then some 2
  else if first < 0xF8 then some 3
  else none

/-- Each percent sign of a tag comes before the two hexadecimal digits of a byte, and the bytes of
a character stand together. `owed` of them are still to come. -/
def bytesAreComplete (owed : Nat) : Text → Bool
  | [] => owed = 0
  | '%' :: high :: low :: rest =>
    match hexNumber? [high, low] with
    | none => false
    | some byte =>
      if 0 < owed then 0x80 ≤ byte && byte < 0xC0 && bytesAreComplete (owed - 1) rest
      else
        match continuations? byte with
        | some count => bytesAreComplete count rest
        | none => false
  | c :: rest => c ≠ '%' && owed = 0 && bytesAreComplete 0 rest

def readTagText (enclosed : Bool) (cursor : Cursor) : Result (Text × Cursor) :=
  let (text, next) := cursor.span (isTagCharacter enclosed)
  if bytesAreComplete 0 text then .ok (text, next) else .error "did not find URI escaped octet"

/-- A tag. Only the handle matters, which has to be known; a tag without one has the empty text. -/
def readTag (lexer : Lexer) : Result Lexer := do
  let noted ← lexer.noteCandidate
  let start := noted.cursor
  let (handle, cursor) ←
    if start.peekAt 1 = some '<' then do
      let (text, next) ← readTagText true (start.skip 2)
      if text = [] then throw "did not find expected tag URI"
      unless next.at? '>' do throw "did not find the expected '>'"
      pure (([] : Text), next.skip 1)
    else do
      let (word, next) := (start.skip 1).span isWord
      if next.at? '!' then
        let (text, last) ← readTagText false (next.skip 1)
        if text = [] then throw "did not find expected tag URI"
        pure ('!' :: word ++ ['!'], last)
      else
        let (text, last) ← readTagText false next
        pure (if word = [] && text = [] then [] else ['!'], last)
  unless cursor.spaceAt 0 || (noted.inFlow && cursor.at? ',') do
    throw "did not find expected whitespace or line break"
  pure (((noted.moveTo cursor).allowKey false).emit (.tag handle))

/-- The rest of a directive line has to be empty. -/
def endDirective (cursor : Cursor) : Result Cursor :=
  let cursor := (cursor.skipWhile isBlank).skipComment
  if cursor.peek.all isBreak then
    .ok (if cursor.peek.isSome then cursor.skipBreak else cursor)
  else .error "did not find expected comment or line break"

def readNumber (cursor : Cursor) : Result (Nat × Cursor) :=
  let (digits, next) := cursor.span Char.isDigit
  if digits = [] then .error "did not find expected version number"
  else if 9 < digits.length then .error "found extremely long version number"
  else .ok (digits.foldl (fun value c => value * 10 + (c.toNat - 48)) 0, next)

def readVersion (cursor : Cursor) : Result (Token × Cursor) := do
  let (major, cursor) ← readNumber (cursor.skipWhile isBlank)
  unless cursor.at? '.' do throw "did not find expected digit or '.' character"
  let (minor, cursor) ← readNumber (cursor.skip 1)
  pure (.versionDirective major minor, cursor)

def readHandle (cursor : Cursor) : Result (Token × Cursor) := do
  let cursor := cursor.skipWhile isBlank
  unless cursor.at? '!' do throw "did not find expected '!'"
  let (word, next) := (cursor.skip 1).span isWord
  let (handle, next) ←
    if next.at? '!' then pure ('!' :: word ++ ['!'], next.skip 1)
    else if word = [] then pure (['!'], next)
    else throw "did not find expected '!'"
  unless next.peek.any isBlank do throw "did not find expected whitespace"
  let (text, next) ← readTagText true (next.skipWhile isBlank)
  if text = [] then throw "did not find expected tag URI"
  unless next.spaceAt 0 do throw "did not find expected whitespace or line break"
  pure (.tagDirective handle, next)

def readDirective (lexer : Lexer) : Result Lexer := do
  let outer ← lexer.atDocumentLevel
  let (name, cursor) := (outer.cursor.skip 1).span isWord
  if name = [] then throw "could not find expected directive name"
  unless cursor.spaceAt 0 do throw "found unexpected non-alphabetical character"
  let (token, cursor) ←
    if name = ['Y', 'A', 'M', 'L'] then readVersion cursor
    else if name = ['T', 'A', 'G'] then readHandle cursor
    else throw "found unknown directive name"
  pure ((outer.moveTo (← endDirective cursor)).emit token)

def readDocumentMark (lexer : Lexer) (token : Token) : Result Lexer := do
  let outer ← lexer.atDocumentLevel
  pure ((outer.skip 3).emit token)

def readBlockScalar (lexer : Lexer) (literal : Bool) : Result Lexer := do
  let cleared ← lexer.dropCandidate
  let (text, cursor) ← readBlock literal lexer.indents.head? cleared.cursor
  pure (((cleared.moveTo cursor).allowKey true).emit (.scalar text false))

def readQuotedScalar (lexer : Lexer) (quote : Quote) : Result Lexer := do
  let noted ← lexer.noteCandidate
  let (text, cursor) ← readQuoted quote noted.cursor.rest.length (noted.cursor.skip 1) []
  pure (((noted.moveTo cursor).allowKey false).emit (.scalar text false))

def readPlainScalar (lexer : Lexer) : Result Lexer := do
  let noted ← lexer.noteCandidate
  let indentation := (lexer.indents.head?.map (· + 1)).getD 0
  let (text, broken, cursor) ←
    readPlain lexer.inFlow indentation (noted.cursor.rest.length + 1) noted.cursor [] none
  pure (((noted.moveTo cursor).allowKey broken).emit (.scalar text true))

/-- The characters that cannot begin a plain scalar, whatever follows them. -/
def indicators : List Char :=
  [',', '[', ']', '\x7B', '\x7D', '#', '&', '*', '!', '|', '>', '\x27', '\x22', '%', '@', '\x60']

def beginsPlain (lexer : Lexer) (c : Char) : Bool :=
  let cursor := lexer.cursor
  if c = '-' then !(cursor.peekAt 1).any isBlank
  else if c = '?' || c = ':' then !lexer.inFlow && !cursor.spaceAt 1
  else !isSpace c && !indicators.contains c

/-- Reads the next token, which begins with the given character. -/
def readToken (lexer : Lexer) (c : Char) : Result Lexer :=
  let cursor := lexer.cursor
  let ends := cursor.spaceAt 1
  if cursor.column = 0 && c = '%' then lexer.readDirective
  else if cursor.atDocumentMark then
    lexer.readDocumentMark (if c = '-' then .documentStart else .documentEnd)
  else if c = '[' then lexer.readFlowStart .flowSequenceStart
  else if c = '\x7B' then lexer.readFlowStart .flowMappingStart
  else if c = ']' then lexer.readFlowEnd .flowSequenceEnd
  else if c = '\x7D' then lexer.readFlowEnd .flowMappingEnd
  else if c = ',' then lexer.readFlowEntry
  else if c = '-' && ends then lexer.readBlockEntry
  else if c = '?' && (lexer.inFlow || ends) then lexer.readKey
  else if c = ':' && (lexer.inFlow || ends) then lexer.readValue
  else if c = '*' then lexer.readAnchor .alias
  else if c = '&' then lexer.readAnchor .anchor
  else if c = '!' then lexer.readTag
  else if c = '|' && !lexer.inFlow then lexer.readBlockScalar true
  else if c = '>' && !lexer.inFlow then lexer.readBlockScalar false
  else if c = Quote.single.mark then lexer.readQuotedScalar .single
  else if c = Quote.double.mark then lexer.readQuotedScalar .double
  else if lexer.beginsPlain c then lexer.readPlainScalar
  else .error "found character that cannot start any token"

/-- All tokens that are left. Each takes at least one character. -/
def run : Nat → Lexer → Result (List Token)
  | 0, lexer => .ok lexer.tokens
  | fuel + 1, lexer => do
    let next := lexer.skipBlanks (lexer.cursor.rest.length + 1)
    let current ← next.dropStale
    match current.cursor.peek with
    | none =>
      let last ← current.atDocumentLevel
      pure (last.emit .streamEnd).tokens
    | some c =>
      let current := current.closeBlocks (some current.cursor.column)
      run fuel (← current.readToken c)

end Lexer

/-- The tokens of a text. -/
def tokens (text : Text) : Result (List Token) :=
  if text.all isPrintable then Lexer.run (text.length + 1) { cursor := { rest := text } }
  else .error "control characters are not allowed"

end ImageStaging.Yaml
