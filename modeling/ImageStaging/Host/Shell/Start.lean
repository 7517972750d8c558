import ImageStaging.Host.Shell.Execution

/-!
# The shell as a program

A script comes after `-c`, is the content of a file, or is read from the standard input.
-/

namespace ImageStaging.Host.Shell

/-- How deep a script may nest, and how often its loops may go round. -/
def fuel : Nat := 100000

/-- The variables that a shell starts with. -/
def firstValues (process : Process) (place : Text) : List (Text × Variable) :=
  let told := process.environment.map fun (name, value) =>
    (name, { value := some value, exported := true : Variable })
  let own : List (Text × Text) :=
    [("IFS".toList, [' ', '\t', '\n']), ("OPTIND".toList, ['1']), ("PS1".toList, "# ".toList),
      ("PS2".toList, "> ".toList), ("PS4".toList, "+ ".toList), ("PWD".toList, place)]
  let missing := own.filter fun item => (told.lookup item.1).isNone
  let isPlace (name : Text) : Bool := name = "PWD".toList
  missing.map (fun (name, value) =>
    (name, { value := some value, exported := isPlace name : Variable })) ++ told.reverse

/-- A complaint about the words of a shell itself. -/
def refuse (process : Process) (message : String) : Task ExitStatus := do
  process.complain s!"{String.ofList process.name}: 0: {message}"
  pure (.code 2)

/-- Runs a script to its end and returns the status of the shell. -/
def runScript (launcher : Launcher) (shell : Shell) (isFile : Bool) (script : Text) :
    Task ExitStatus := do
  let run : Run Unit := do
    try Run.runLines launcher fuel false isFile { rest := script }
    catch interrupt =>
      match interrupt with
      | .exit (.signal _ _) => throw interrupt
      | .exit (.code code) => Run.setStatus code
      | _ => pure ()
    Run.runExitTrap launcher fuel
  let machine ← get
  let (result, session) := (ExceptT.run run).run ⟨shell, machine⟩
  set session.machine
  match result with
  | .error (.exit status) => pure status
  | _ => pure (.code session.shell.status)

def run (launcher : Launcher) (number : Nat) (process : Process) : Task ExitStatus := do
  let files ← Task.files
  let physical := Utility.placeText files
  let place :=
    match process.environment.lookup "PWD".toList with
    | some path =>
      match files.locate .target (Path.ofText path) with
      | .ok location =>
        if location = files.workingDirectory && path.head? = some '/' then path else physical
      | .error _ => physical
    | none => physical
  let start (options : List String) (name : Text) (arguments : List Text) : Shell :=
    { name, arguments, options, place, process := number
      handles := process.handles
      values := firstValues process place }
  match Builtin.Setting.read true [] process.arguments with
  | .error message => refuse process message
  | .ok setting =>
    let fromInput (options : List String) (arguments : List Text) : Task ExitStatus := do
      let script := Utf8.decodeLossy (← process.readAll)
      runScript launcher (start options process.name arguments) true script
    match setting.ofText, setting.arguments.getD [] with
    | true, [] => refuse process "-c requires an argument"
    | true, script :: words =>
      let shell := start setting.options (words.headD process.name) (words.drop 1)
      runScript launcher shell false script
    | false, [] => fromInput ("stdin" :: setting.options.filter (· ≠ "stdin")) []
    | false, path :: arguments =>
      if setting.options.contains "stdin" then fromInput setting.options (path :: arguments)
      else
        match files.read (Path.ofText path) with
        | .ok content =>
          let shell := start setting.options path arguments
          runScript launcher shell true (Utf8.decodeLossy content)
        | .error .isADirectory => pure (.code 0)
        | .error fault =>
          refuse process s!"cannot open {String.ofList path}: {Run.openFault true fault}"

end ImageStaging.Host.Shell
