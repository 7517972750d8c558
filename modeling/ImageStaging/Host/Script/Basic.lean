import ImageStaging.Text.Basic

/-!
# Shell scripts

A script is a list of commands. A word is a list of parts, of which some stand for themselves and
others for what a parameter holds, what a script prints or what an expression is worth. Whatever was
in quotes is marked, since it is neither split into fields nor read as a pattern.
-/

namespace ImageStaging.Host.Script

/-- What a dollar sign asks for. -/
inductive Parameter
  /-- The name of the script is at position 0, its first argument at 1. -/
  | position (index : Nat)
  | count
  /-- All arguments, as one field each if they are quoted and `separate`. -/
  | all (separate : Bool)
  | process
  | background
  | status
  | flags
  | named (name : Text)
  deriving DecidableEq, Repr

/-- What becomes of the value of a parameter. For the first four an empty value may be as good as
none. -/
inductive Modifier
  | default (emptyToo : Bool)
  | assign (emptyToo : Bool)
  | require (emptyToo : Bool)
  | alternative (emptyToo : Bool)
  | cutStart (longest : Bool)
  | cutEnd (longest : Bool)
  | length
  /-- What is in the braces makes no sense. -/
  | invalid
  deriving DecidableEq, Repr

/-- What a redirection does with a handle. -/
inductive Direction
  | read
  | write (appends : Bool)
  /-- Writes even if files that are there must be kept. -/
  | overwrite
  | both
  | duplicate
  /-- The target is the text to read. -/
  | here
  deriving DecidableEq, Repr

mutual

inductive Part
  | literal (text : Text) (quoted : Bool)
  | parameter (parameter : Parameter) (modifier : Option Modifier) (word : List Part)
      (quoted : Bool)
  | substitution (commands : List Command) (quoted : Bool)
  | arithmetic (expression : List Part) (quoted : Bool)

inductive Redirection
  | redirect (handle : Nat) (direction : Direction) (target : List Part)

inductive Command
  | simple (line : Nat) (assignments : List (Text × List Part)) (words : List (List Part))
      (redirections : List Redirection)
  | pipeline (negated : Bool) (stages : List Command)
  /-- The second command runs if the first one ended well, or if it did not. -/
  | chain (first : Command) (onSuccess : Bool) (second : Command)
  | background (command : Command)
  | group (commands : List Command)
  | subshell (commands : List Command)
  | conditional (condition body otherwise : List Command)
  | loop (negated : Bool) (condition body : List Command)
  | iteration (line : Nat) (name : Text) (words : Option (List (List Part)))
      (body : List Command)
  | selection (line : Nat) (word : List Part)
      (branches : List (List (List Part) × List Command))
  | definition (name : Text) (body : Command)
  | redirected (line : Nat) (command : Command) (redirections : List Redirection)

end

abbrev Word := List Part

def isNameStart (c : Char) : Bool :=
  c.isAlpha || c = '_'

def isNameCharacter (c : Char) : Bool :=
  c.isAlphanum || c = '_'

def isName (text : Text) : Bool :=
  text.head?.any isNameStart && text.all isNameCharacter

end ImageStaging.Host.Script
