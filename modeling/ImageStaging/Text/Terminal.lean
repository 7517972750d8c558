import ImageStaging.Text.Basic

/-!
# What a terminal shows of a text

Control characters are not shown, white space apart, and neither are the sequences that begin with
an escape character. White space inside a sequence is shown and ends it; a string that a sequence
introduces hides all it holds up to the next escape character.
-/

namespace ImageStaging.Terminal

/-- Where the reading of a text stands: in plain text, after an escape character, after the
characters that may come between it and its letter, among the parameters of a sequence, or in a
string, which a bell may end. -/
inductive Reading
  | plain
  | escape
  | intermediate
  | parameters
  | string (endsAtBell : Bool)
  deriving DecidableEq, Repr

def isSpacing (c : Char) : Bool :=
  c = '\t' || c = '\n' || c = '\x0C' || c = '\r'

def isControl (c : Char) : Bool :=
  c < ' ' || c = '\x7F'

/-- Cancels any sequence. -/
def isCancel (c : Char) : Bool :=
  c = '\x18' || c = '\x1A'

def isIntermediate (c : Char) : Bool :=
  ' ' ≤ c && c ≤ '/'

def isParameter (c : Char) : Bool :=
  ' ' ≤ c && c ≤ '?'

/-- What follows the letter after an escape character. -/
def afterEscape (c : Char) : Reading :=
  match c with
  | '[' => .parameters
  | ']' => .string true
  | 'P' | 'X' | '^' | '_' => .string false
  | _ => if isIntermediate c then .intermediate else .plain

/-- What follows a character that is part of a sequence. -/
def inSequence (reading : Reading) (c : Char) : Reading :=
  match reading with
  | .plain => .plain
  | .escape => afterEscape c
  | .intermediate => if isIntermediate c then .intermediate else .plain
  | .parameters => if isParameter c then .parameters else .plain
  | .string endsAtBell => .string endsAtBell

/-- Whether a character is shown, and where the reading stands after it. -/
def step (reading : Reading) (c : Char) : Bool × Reading :=
  if c = '\x1B' then (false, .escape)
  else if isCancel c then (false, .plain)
  else
    match reading with
    | .plain => (isSpacing c || !isControl c, .plain)
    | .string endsAtBell => (false, if endsAtBell && c = '\x07' then .plain else reading)
    | _ =>
      if isSpacing c then (true, .plain)
      else if isControl c || '\x7F' < c then (false, reading)
      else (false, inSequence reading c)

def visibleFrom : Reading → Text → Text
  | _, [] => []
  | reading, c :: rest =>
    let (shown, next) := step reading c
    if shown then c :: visibleFrom next rest else visibleFrom next rest

def visible (text : Text) : Text :=
  visibleFrom .plain text

end ImageStaging.Terminal
