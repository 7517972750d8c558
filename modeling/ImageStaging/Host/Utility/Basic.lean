import ImageStaging.Host.Machine

/-!
# What the small programs have in common

A program reads options and operands from its words. Options are letters after a dash, some with a
value; they may stand after operands too, up to two dashes.
-/

namespace ImageStaging.Host

/-- A program as a task that ends with a status. -/
abbrev Utility := Process → Task Nat

/-- The options that a program knows. -/
structure OptionTable where
  letters : List Char
  /-- Letters that take a value. -/
  valued : List Char := []
  /-- Words of two dashes that stand for letters. -/
  long : List (String × Char) := []

inductive OptionFault
  | unknownLetter (letter : Char)
  | unknownWord (word : Text)
  | missingValue (letter : Char)
  deriving DecidableEq

def OptionFault.message : OptionFault → String
  | .unknownLetter letter => s!"invalid option -- '{letter}'"
  | .unknownWord word => s!"unrecognized option '{String.ofList word}'"
  | .missingValue letter => s!"option requires an argument -- '{letter}'"

structure Options where
  /-- Letters with their values, in the order in which they were given. -/
  letters : List (Char × Text) := []
  operands : List Text := []

namespace Options

/-- The options in one word of letters, and whether the last of them takes its value from the next
word. -/
def readLetters (table : OptionTable) :
    Text → Except OptionFault (List (Char × Text) × Option Char)
  | [] => .ok ([], none)
  | letter :: rest => do
    if table.valued.contains letter then
      pure (if rest = [] then ([], some letter) else ([(letter, rest)], none))
    else if table.letters.contains letter then
      let (more, waiting) ← readLetters table rest
      pure ((letter, []) :: more, waiting)
    else throw (.unknownLetter letter)

def addLetters (options : Options) (letters : List (Char × Text)) : Options :=
  { options with letters := letters ++ options.letters }

def readFrom (table : OptionTable) : Option Char → List Text → Except OptionFault Options
  | none, [] => .ok {}
  | some letter, [] => .error (.missingValue letter)
  | some letter, word :: rest => do
    pure ((← readFrom table none rest).addLetters [(letter, word)])
  | none, word :: rest => do
    match word with
    | ['-', '-'] => pure { operands := rest }
    | '-' :: '-' :: _ =>
      match table.long.lookup (String.ofList (word.drop 2)) with
      | some letter => pure ((← readFrom table none rest).addLetters [(letter, [])])
      | none => throw (.unknownWord word)
    | '-' :: letter :: letters =>
      let (found, waiting) ← readLetters table (letter :: letters)
      pure ((← readFrom table waiting rest).addLetters found)
    | _ =>
      let more ← readFrom table none rest
      pure { more with operands := word :: more.operands }

def read (table : OptionTable) (words : List Text) : Except OptionFault Options :=
  readFrom table none words

def has (options : Options) (letter : Char) : Bool :=
  options.letters.any (·.1 = letter)

/-- The last value that was given to a letter. -/
def value? (options : Options) (letter : Char) : Option Text :=
  options.letters.reverse.lookup letter

end Options

/-- A name between apostrophes, as messages show it. -/
def quoted (name : Text) : String :=
  s!"'{String.ofList name}'"

/-- The lines of a content. A line feed at its end ends the last line and begins none. -/
def linesOf (content : Bytes) : List Bytes :=
  let lines := content.splitOn 0x0A
  if lines.getLast? = some [] then lines.dropLast else lines

def ofLines (lines : List Bytes) : Bytes :=
  lines.flatMap (· ++ [0x0A])

namespace Process

/-- Goes through operands one by one; the worst status is the status of all. -/
def overEach (one : Text → Task Nat) (operands : List Text) : Task Nat :=
  operands.foldlM (fun worst operand => do pure (max worst (← one operand))) 0

/-- Says that something could not be done, and returns the status that tells of it. -/
def failWith (process : Process) (message : String) (fault : FileFault) : Task Nat := do
  process.complain s!"{String.ofList process.name}: {message}: {faultName fault}"
  pure 1

/-- Says what is wrong with the words of a program, and where to learn more. -/
def refuse (process : Process) (message : String) : Task Nat := do
  let name := String.ofList process.name
  process.complain s!"{name}: {message}\nTry '{name} --help' for more information."
  pure 1

/-- Says that an operand is missing. -/
def missingOperand (process : Process) : Task Nat :=
  process.refuse "missing operand"

def extraOperand (process : Process) (operand : Text) : Task Nat :=
  process.refuse s!"extra operand {quoted operand}"

end Process

/-- A program that reads its options first. It ends with another status than usual if it knows one
of them not. -/
def Utility.withOptions (table : OptionTable) (trouble : Nat)
    (body : Process → Options → Task Nat) : Utility := fun process => do
  match Options.read table process.arguments with
  | .ok options => body process options
  | .error fault =>
    let _ ← process.refuse fault.message
    pure trouble

end ImageStaging.Host
