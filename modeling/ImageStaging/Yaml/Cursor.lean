import ImageStaging.Text.Basic

/-!
# Positions in a YAML text

The classes of characters that the format knows, and a cursor that counts lines and columns as it
goes. A carriage return with a line feed is one line break; every break but the two Unicode
separators is read as a line feed.
-/

namespace ImageStaging.Yaml

abbrev Result := Except String

/-- The characters that may stand in a YAML text at all. -/
def isPrintable (c : Char) : Bool :=
  let code := c.toNat
  code = 0x09 || code = 0x0A || code = 0x0D || (0x20 ≤ code && code ≤ 0x7E) || code = 0x85 ||
    (0xA0 ≤ code && code ≤ 0xD7FF) || (0xE000 ≤ code && code ≤ 0xFFFD) || 0x10000 ≤ code

def isBlank (c : Char) : Bool :=
  c = ' ' || c = '\t'

def isBreak (c : Char) : Bool :=
  c = '\n' || c = '\r' || c.toNat = 0x85 || c.toNat = 0x2028 || c.toNat = 0x2029

def isSpace (c : Char) : Bool :=
  isBlank c || isBreak c

/-- The characters of anchors, directive names and tag handles. -/
def isWord (c : Char) : Bool :=
  c.isAlphanum || c = '_' || c = '-'

structure Cursor where
  rest : Text
  line : Nat := 0
  /-- How many characters of the line are behind the cursor. -/
  column : Nat := 0
  /-- How many bytes of the text are behind the cursor. -/
  index : Nat := 0

namespace Cursor

def peek (cursor : Cursor) : Option Char :=
  cursor.rest.head?

def peekAt (cursor : Cursor) (offset : Nat) : Option Char :=
  cursor.rest[offset]?

/-- A space or a break follows, or nothing does. -/
def spaceAt (cursor : Cursor) (offset : Nat) : Bool :=
  (cursor.peekAt offset).all isSpace

def at? (cursor : Cursor) (c : Char) : Bool :=
  cursor.peek = some c

def startsWith (cursor : Cursor) (text : Text) : Bool :=
  text.isPrefixOf cursor.rest

/-- The index behind some of the characters that are left. -/
def indexAfter (cursor : Cursor) (count : Nat) : Nat :=
  (cursor.rest.take count).foldl (fun index c => index + c.utf8Size) cursor.index

/-- Past some characters of one line. -/
def skip (cursor : Cursor) (count : Nat) : Cursor :=
  { cursor with
    rest := cursor.rest.drop count
    column := cursor.column + count
    index := cursor.indexAfter count }

/-- Past a line break. -/
def skipBreak (cursor : Cursor) : Cursor :=
  let width := if cursor.startsWith ['\r', '\n'] then 2 else 1
  { rest := cursor.rest.drop width
    line := cursor.line + 1
    column := 0
    index := cursor.indexAfter width }

/-- Past a byte order mark at the beginning of a line. -/
def skipOrderMark (cursor : Cursor) : Cursor :=
  if cursor.column = 0 && cursor.at? '\uFEFF' then cursor.skip 1 else cursor

/-- What a line break stands for in a scalar. -/
def breakText (cursor : Cursor) : Text :=
  match cursor.peek with
  | some c => if c.toNat = 0x2028 || c.toNat = 0x2029 then [c] else ['\n']
  | none => []

/-- The longest run of characters of a class, none of them a break, and the cursor behind it. -/
def span (cursor : Cursor) (belongs : Char → Bool) : Text × Cursor :=
  let run := cursor.rest.takeWhile fun c => belongs c && !isBreak c
  (run, cursor.skip run.length)

def skipWhile (cursor : Cursor) (belongs : Char → Bool) : Cursor :=
  (cursor.span belongs).2

/-- Past a comment, if one begins here. -/
def skipComment (cursor : Cursor) : Cursor :=
  if cursor.at? '#' then cursor.skipWhile (fun _ => true) else cursor

/-- Three dashes or three dots that stand alone at the beginning of a line. -/
def atDocumentMark (cursor : Cursor) : Bool :=
  cursor.column = 0 && (cursor.startsWith ['-', '-', '-'] || cursor.startsWith ['.', '.', '.']) &&
    cursor.spaceAt 3

end Cursor

end ImageStaging.Yaml
