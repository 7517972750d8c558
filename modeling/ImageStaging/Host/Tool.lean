import ImageStaging.Host.Shell.Start
import ImageStaging.Host.Utility.Filing
import ImageStaging.Host.Utility.Judging
import ImageStaging.Host.Utility.Listing
import ImageStaging.Host.Utility.Searching
import ImageStaging.Process

/-!
# Programs of the host as build tools

A build tool runs in the working directory with an empty standard input, and what it writes goes to
the streams of the run. It succeeds if it can be launched and ends with status 0.
-/

namespace ImageStaging.Host

/-- The programs that launch no others. -/
def utility? : Program → Option Utility
  | .succeed => some fun _ => pure 0
  | .fail => some fun _ => pure 1
  | .sleep => some Utility.sleep
  | .echo => some Utility.echo
  | .printf => some Utility.printf
  | .test => some (Utility.judge false)
  | .bracket => some (Utility.judge true)
  | .cat => some Utility.cat
  | .list => some Utility.list
  | .place => some Utility.place
  | .makeDirectory => some Utility.makeDirectories
  | .removeDirectory => some Utility.removeDirectories
  | .remove => some Utility.remove
  | .touch => some Utility.touch
  | .copy => some Utility.copy
  | .move => some Utility.move
  | .link => some Utility.link
  | .changeMode => some Utility.changeMode
  | .readLink => some Utility.readLink
  | .baseName => some Utility.baseName
  | .directoryName => some Utility.directoryName
  | .head => some Utility.head
  | .tail => some Utility.tail
  | .count => some Utility.count
  | .sort => some Utility.sort
  | .unique => some Utility.unique
  | .translate => some Utility.translate
  | .cut => some Utility.cut
  | .search => some Utility.search
  | .sequence => some Utility.sequence
  | .tee => some Utility.tee
  | .find => some Utility.find
  | .shell | .environment => none

/-- Programs for which a failure has status 1 because of what they answer by it have another one for
trouble. -/
def troubleStatus : Program → Nat
  | .list | .sort | .search => 2
  | _ => 1

/-- Runs a program that launches no others. It complains if what it prints cannot be written. -/
def runUtility (program : Program) (utility : Utility) (process : Process) : Task Nat := do
  let output := process.handles.lookup standardOutput
  let stream ←
    match output with
    | some index => some <$> Task.streamAt index
    | none => pure none
  let complaint? : Option String :=
    match stream, program with
    | some .full, _ => some "write error: No space left on device"
    | none, .cat => some "standard output: Bad file descriptor"
    | none, _ => some "write error: Bad file descriptor"
    | some _, _ => none
  match complaint? with
  | none => utility process
  | some complaint =>
    let index ← Task.newStream (.buffer [])
    let others := process.handles.filter fun item => item.1 ≠ standardOutput
    let status ← utility { process with handles := (standardOutput, index) :: others }
    if (← Task.takeFrom index fun _ => false) = [] then pure status
    else
      process.complain s!"{String.ofList process.name}: {complaint}"
      pure (troubleStatus program)

/-- An environment without a variable. -/
def without (environment : List (Text × Text)) (name : Text) : List (Text × Text) :=
  environment.filter fun item => item.1 ≠ name

/-- The environment that leading options ask for, and the words after them. -/
def readEnvironment : List (Text × Text) → List Text →
    Except OptionFault (List (Text × Text) × List Text)
  | environment, [] => .ok (environment, [])
  | environment, word :: rest =>
    match word with
    | ['-'] | ['-', 'i'] => readEnvironment [] rest
    | ['-', '-'] => .ok (environment, rest)
    | ['-', 'u'] =>
      match rest with
      | [] => .error (.missingValue 'u')
      | name :: rest => readEnvironment (without environment name) rest
    | '-' :: '-' :: _ => .error (.unknownWord word)
    | '-' :: letter :: _ => .error (.unknownLetter letter)
    | _ => .ok (environment, word :: rest)

/-- Runs a command in an environment that some words change, or shows the environment. -/
def runInEnvironment (launcher : Launcher) (process : Process) : Task ExitStatus := do
  match readEnvironment process.environment process.arguments with
  | .error fault =>
    let _ ← process.refuse fault.message
    pure (.code 125)
  | .ok (kept, words) =>
    let changes := words.takeWhile fun word => word.contains '='
    let environment := changes.foldl (fun held word =>
      match Text.splitFirst '=' word with
      | some (name, value) => without held name ++ [(name, value)]
      | none => held) kept
    match words.drop changes.length with
    | [] =>
      for (name, value) in environment do
        process.printText (name ++ '=' :: value ++ ['\n'])
      pure (.code 0)
    | command :: arguments =>
      let path := (environment.lookup "PATH".toList).getD Launch.usualSearchPath
      match Launch.ofCommand (← Task.files) path command arguments with
      | .ok launch => launcher launch.program { process with words := launch.words, environment }
      | .error fault =>
        process.complain s!"env: {quoted command}: {faultName fault}"
        pure (.code (if fault = .notFound then 127 else 126))

/-- Runs a program. A program may launch others, `depth` of them inside one another. Any numbers
will do for processes, as long as those inside one another differ. -/
def runWithin : Nat → Launcher
  | 0, _, process => do
    process.complain "sh: 0: Cannot fork"
    pure (.code 2)
  | depth + 1, program, process =>
    match utility? program with
    | some utility => do pure (.code (← runUtility program utility process))
    | none =>
      match program with
      | .shell => Shell.run (runWithin depth) (1000 - depth) process
      | _ => runInEnvironment (runWithin depth) process

def launchDepth : Nat := 100

/-- The environment of a build tool. -/
def environment (logSetting : Option String) : List (Text × Text) :=
  [("LC_ALL".toList, ['C']), ("NO_COLOR".toList, ['1']),
    ("PATH".toList, Launch.usualSearchPath)] ++
    (logSetting.map fun text => ("RUST_LOG".toList, text.toList)).toList

/-- Runs a launch on some files. What it leaves are its changes of them and what it wrote to the
streams. -/
def run (logSetting : Option String) (launch : Launch) (files : FileSystem) : Child :=
  let machine : Machine := ⟨{ files }, [.nowhere, .output, .errors]⟩
  let process : Process :=
    ⟨launch.words, [(standardInput, 0), (standardOutput, 1), (standardError, 2)],
      environment logSetting⟩
  let (status, machine) := (runWithin launchDepth launch.program process).run machine
  let left := machine.world
  { status, changes := left.journal, output := left.output, errors := left.toolErrors }

/-- The programs of the host. -/
def spawner (logSetting : Option String) : Spawner := fun files program arguments =>
  if (program :: arguments).any fun word => word.toList.contains '\x00' then .error .nulInWord
  else
    match Launch.ofCommand files Launch.usualSearchPath program.toList
        (arguments.map String.toList) with
    | .ok launch => .ok (run logSetting launch files)
    | .error fault => .error (.file fault)

end ImageStaging.Host
