import ImageStaging.Text.Basic

/-!
# Words of a command line

A command is shown as its words between single spaces, each quoted if a shell would read it as
anything but itself. Quoting is between apostrophes, where only the apostrophe itself is special;
it is written as an end of quoting, an escaped apostrophe and a new beginning. `split` is the
reading of such a line.
-/

namespace ImageStaging.Word

def apostrophe : Char := '\x27'

def backslash : Char := '\\'

/-- The characters that force a word into quotes. -/
def special : List Char :=
  ['\n', apostrophe, '|', '&', ';', '<', '>', '(', ')', '$', '\x60', backslash, '\x22', ' ', '\t',
    '*', '?', '[', '#', '~', '=', '%']

def isSpecial (c : Char) : Bool :=
  special.contains c

def quoteChar (c : Char) : Text :=
  if c = apostrophe then [apostrophe, backslash, apostrophe, apostrophe] else [c]

def quote (word : Text) : Text :=
  if word ≠ [] && !word.any isSpecial then word
  else apostrophe :: word.flatMap quoteChar ++ [apostrophe]

def join (words : List Text) : Text :=
  [' '].intercalate (words.map quote)

/-- Where a reader of a command line stands: between words, or in a word, quoted or not. -/
inductive Reading
  | between
  | bare (word : Text)
  | quoted (word : Text)
  | escaped (word : Text)
  deriving DecidableEq, Repr

def isSeparator (c : Char) : Bool :=
  c = ' ' || c = '\t' || c = '\n'

/-- The words of a line, by the rules for spaces, apostrophes and backslashes. A word collects its
characters in reverse. -/
def splitFrom : Reading → Text → Option (List Text)
  | .between, [] => some []
  | .bare word, [] => some [word.reverse]
  | .quoted _, [] => none
  | .escaped _, [] => none
  | .between, c :: rest =>
    if isSeparator c then splitFrom .between rest
    else if c = apostrophe then splitFrom (.quoted []) rest
    else if c = backslash then splitFrom (.escaped []) rest
    else splitFrom (.bare [c]) rest
  | .bare word, c :: rest =>
    if isSeparator c then (splitFrom .between rest).map (word.reverse :: ·)
    else if c = apostrophe then splitFrom (.quoted word) rest
    else if c = backslash then splitFrom (.escaped word) rest
    else splitFrom (.bare (c :: word)) rest
  | .quoted word, c :: rest =>
    if c = apostrophe then splitFrom (.bare word) rest else splitFrom (.quoted (c :: word)) rest
  | .escaped word, c :: rest => splitFrom (.bare (c :: word)) rest

def split (line : Text) : Option (List Text) :=
  splitFrom .between line

end ImageStaging.Word
