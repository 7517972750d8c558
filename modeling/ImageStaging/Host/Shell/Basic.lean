import ImageStaging.Failure
import ImageStaging.Host.Launch
import ImageStaging.Host.Machine
import ImageStaging.Host.Script.Reading

/-!
# The state of a shell

A shell has variables, functions, options and handles of its own, and works on the machine that all
processes share. A part of a script that runs in a subshell gets a copy of the first and changes
the second. A command that leaves the normal order of a script interrupts what is around it.
-/

namespace ImageStaging.Host

structure Variable where
  value : Option Text := none
  exported : Bool := false
  readOnly : Bool := false

/-- An option of the shell: its name, and its letter if it has one. -/
structure ShellOption where
  name : String
  letter : Option Char := none

/-- All options, in the order in which they are shown. -/
def ShellOption.all : List ShellOption :=
  [⟨"errexit", 'e'⟩, ⟨"noglob", 'f'⟩, ⟨"ignoreeof", 'I'⟩, ⟨"interactive", 'i'⟩, ⟨"monitor", 'm'⟩,
    ⟨"noexec", 'n'⟩, ⟨"stdin", 's'⟩, ⟨"xtrace", 'x'⟩, ⟨"verbose", 'v'⟩, ⟨"vi", 'V'⟩, ⟨"emacs", 'E'⟩,
    ⟨"noclobber", 'C'⟩, ⟨"allexport", 'a'⟩, ⟨"notify", 'b'⟩, ⟨"nounset", 'u'⟩,
    ⟨"privileged", 'p'⟩, ⟨"nolog", none⟩, ⟨"debug", none⟩]

structure Shell where
  name : Text
  arguments : List Text := []
  values : List (Text × Variable) := []
  functions : List (Text × Script.Command) := []
  handles : Handles
  /-- The path of the working directory as the script sees it. -/
  place : Text
  status : Nat := 0
  /-- The status of the last substitution in the command. -/
  substituted : Option Nat := none
  /-- The names of the options that are on. -/
  options : List String := []
  line : Nat := 1
  /-- The command of the shell that complaints come from, if one is at work. -/
  caller : Option String := none
  /-- Something that was printed could not be written. -/
  lostOutput : Bool := false
  /-- How many loops are around the command. -/
  loops : Nat := 0
  /-- For each function being called, what its local variables were outside of it. -/
  scopes : List (List (Text × Option Variable)) := []
  /-- What is to be done at the end or when a signal comes. -/
  traps : List (String × Text) := []
  /-- Signals that came and for which something is to be done. -/
  pending : List String := []
  /-- How many letters of the word that holds options were read. -/
  optionLetters : Nat := 0
  /-- The permissions that new files are not given. -/
  mask : Nat := 0o022
  /-- The numbers of the parts that ran in the background, the last one first, with the statuses
  they ended with. -/
  background : List (Nat × Nat) := []
  process : Nat

structure Session where
  shell : Shell
  machine : Machine

/-- Why a script does not go on with the next command. -/
inductive Interrupt
  | exit (status : ExitStatus)
  /-- Something was wrong, which has been said. -/
  | fault
  /-- So many loops are left. -/
  | leave (count : Nat)
  /-- The innermost loops but so many are left, and the next begins its next round. -/
  | resume (count : Nat)
  | back

abbrev Run := ExceptT Interrupt (StateM Session)

/-- Runs a program as a process. -/
abbrev Launcher := Program → Process → Task ExitStatus

namespace Run

def shell : Run Shell := do
  pure (← get).shell

def modifyShell (change : Shell → Shell) : Run Unit :=
  modify fun session => { session with shell := change session.shell }

def task {α : Type} (task : Task α) : Run α := do
  let session ← get
  let (result, machine) := task.run session.machine
  set { session with machine }
  pure result

def files : Run FileSystem :=
  task Task.files

def setStatus (status : Nat) : Run Unit :=
  modifyShell fun shell => { shell with status }

def writeTo (handle : Nat) (bytes : Bytes) : Run Bool := do
  match (← shell).handles.lookup handle with
  | some index => task (Task.writeTo index bytes)
  | none => pure (bytes = [])

def printBytes (bytes : Bytes) : Run Unit := do
  unless ← writeTo standardOutput bytes do
    modifyShell fun shell => { shell with lostOutput := true }

def print (text : Text) : Run Unit :=
  printBytes (Utf8.encode text)

def isOn (option : String) : Run Bool := do
  pure ((← shell).options.contains option)

/-- Says what is wrong with a command. -/
def complain (message : String) : Run Unit := do
  let shell ← shell
  let caller :=
    match shell.caller with
    | some name => name ++ ": "
    | none => ""
  let line := s!"{String.ofList shell.name}: {shell.line}: {caller}{message}\n"
  let _ ← writeTo standardError (Utf8.encode line.toList)

def exitWith {α : Type} (code : Nat) : Run α := do
  setStatus code
  throw (.exit (.code code))

/-- Ends the script with a complaint. -/
def fail {α : Type} (message : String) : Run α := do
  complain message
  setStatus 2
  throw .fault

/-- Runs a part whose complaints come from a command of the shell. -/
def calledBy {α : Type} (caller : Option String) (part : Run α) : Run α := do
  let outside := (← shell).caller
  modifyShell fun shell => { shell with caller }
  let restore : Run Unit := modifyShell fun shell => { shell with caller := outside }
  try
    let result ← part
    restore
    pure result
  catch interrupt =>
    restore
    throw interrupt

/-- The variable that a name stands for. -/
def held? (name : Text) : Run (Option Variable) := do
  pure ((← shell).values.lookup name)

def value? (name : Text) : Run (Option Text) := do
  pure ((← held? name).bind Variable.value)

def putVariable (name : Text) (held : Option Variable) : Run Unit :=
  modifyShell fun shell =>
    let others := shell.values.filter fun item => item.1 ≠ name
    { shell with
      values :=
        match held with
        | some kept => (name, kept) :: others
        | none => others }

def assign (name value : Text) : Run Unit := do
  let held := (← held? name).getD {}
  if held.readOnly then fail s!"{String.ofList name}: is read only"
  let exported := held.exported || (← isOn "allexport")
  putVariable name (some { held with value := some value, exported })

/-- Variables are told in the order of these numbers, and with the same number in the order in
which they were set. -/
def placeOfName (name : Text) : Nat :=
  let sum := name.foldl (fun sum c => sum + c.toNat) 0
  (16 * (name.map Char.toNat).headD 0 + sum) % 39

/-- The variables that programs are told of. -/
def environment : Run (List (Text × Text)) := do
  let told := (← shell).values.reverse.filterMap fun (name, held) =>
    if held.exported then held.value.map fun value => (name, value) else none
  pure (told.mergeSort fun first second => placeOfName first.1 ≤ placeOfName second.1)

/-- The characters that separate fields. -/
def separators : Run Text := do
  pure ((← value? ['I', 'F', 'S']).getD [' ', '\t', '\n'])

/-- The value of a parameter as one text, if it is set. -/
def parameter? (parameter : Script.Parameter) : Run (Option Text) := do
  let shell ← shell
  match parameter with
  | .position 0 => pure (some shell.name)
  | .position (index + 1) => pure shell.arguments[index]?
  | .count => pure (some (toString shell.arguments.length).toList)
  | .all separate =>
    let separator ← if separate then pure [' '] else (·.take 1) <$> separators
    pure (if shell.arguments.isEmpty then none else some (separator.intercalate shell.arguments))
  | .process => pure (some (toString shell.process).toList)
  | .background => pure (shell.background.head?.map fun (number, _) => (toString number).toList)
  | .status => pure (some (toString shell.status).toList)
  | .flags =>
    let isOn := ShellOption.all.filter fun option => shell.options.contains option.name
    pure (some (isOn.filterMap ShellOption.letter).reverse)
  | .named name => value? name

end Run

/-- How a parameter is called in messages. -/
def Script.Parameter.label : Script.Parameter → Text
  | .position index => (toString index).toList
  | .count => ['#']
  | .all separate => if separate then ['@'] else ['*']
  | .process => ['$']
  | .background => ['!']
  | .status => ['?']
  | .flags => ['-']
  | .named name => name

end ImageStaging.Host
