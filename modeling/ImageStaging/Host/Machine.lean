import ImageStaging.Files

/-!
# Streams and processes

A process has numbered handles, each on a stream. Handles may share a stream, and then they share
the place in it. What goes to the two streams of the run is collected in the world, whose files all
processes work on.
-/

namespace ImageStaging.Host

/-- What a process reads from or writes to. -/
inductive Stream
  | nowhere
  /-- A device that takes nothing. -/
  | full
  | output
  | errors
  /-- Bytes that were written and not read yet. -/
  | buffer (bytes : Bytes)
  /-- A file from a position on; everything is written to its end if `appends`. -/
  | file (location : Location) (position : Nat) (appends : Bool)

structure Machine where
  world : World
  /-- All streams so far, each known by its place in the list. -/
  streams : List Stream := []

abbrev Task := StateM Machine

abbrev Handles := List (Nat × Nat)

def standardInput : Nat := 0

def standardOutput : Nat := 1

def standardError : Nat := 2

/-- A program in execution: its words, of which the first names it, its handles, and the variables
of its environment. -/
structure Process where
  words : List Text
  handles : Handles
  environment : List (Text × Text)

namespace Task

def files : Task FileSystem := do
  pure (← get).world.files

/-- An action on the files, whose fault is a result. -/
def act {ε α : Type} (action : Action ε α) : Task (Except ε α) := do
  let machine ← get
  let (result, world) := action.run machine.world
  set { machine with world }
  pure result

def newStream (stream : Stream) : Task Nat := do
  let machine ← get
  set { machine with streams := machine.streams ++ [stream] }
  pure machine.streams.length

def streamAt (index : Nat) : Task Stream := do
  pure ((← get).streams.getD index .nowhere)

def setStream (index : Nat) (stream : Stream) : Task Unit :=
  modify fun machine => { machine with streams := machine.streams.set index stream }

/-- Writes bytes into a file, over what was there. -/
def writeInFile (location : Location) (position : Nat) (bytes : Bytes) : Task Unit := do
  if let some (.file content executable) := (← files).get? location then
    let before := content.take position
    let gap := List.replicate (position - before.length) 0
    let after := content.drop (position + bytes.length)
    let _ ← act (ε := Unit)
      (Action.change (.place location (.file (before ++ gap ++ bytes ++ after) executable)))

/-- Writes bytes to a stream; `false` if it does not take them. -/
def writeTo (index : Nat) (bytes : Bytes) : Task Bool := do
  match ← streamAt index with
  | .nowhere => pure ()
  | .full => return bytes = []
  | .output =>
    modify fun machine =>
      { machine with world := { machine.world with output := machine.world.output ++ bytes } }
  | .errors =>
    modify fun machine =>
      { machine with
        world := { machine.world with toolErrors := machine.world.toolErrors ++ bytes } }
  | .buffer held => setStream index (.buffer (held ++ bytes))
  | .file location position appends =>
    let size :=
      match (← files).get? location with
      | some (.file content _) => content.length
      | _ => 0
    let position := if appends then size else position
    writeInFile location position bytes
    setStream index (.file location (position + bytes.length) appends)
  return true

/-- Takes the bytes of a stream up to and with the first that is `last`. -/
def takeFrom (index : Nat) (last : UInt8 → Bool) : Task Bytes := do
  let upTo (bytes : Bytes) : Bytes :=
    let front := bytes.takeWhile (!last ·)
    bytes.take (front.length + 1)
  match ← streamAt index with
  | .buffer held =>
    let taken := upTo held
    setStream index (.buffer (held.drop taken.length))
    pure taken
  | .file location position appends =>
    match (← files).get? location with
    | some (.file content _) =>
      let taken := upTo (content.drop position)
      setStream index (.file location (position + taken.length) appends)
      pure taken
    | _ => pure []
  | _ => pure []

/-- What an open path leads to, if it is no file of the file system. -/
def deviceOf? (handles : Handles) (path : Text) : Option (Option Nat ⊕ Stream) :=
  match String.ofList path with
  | "/dev/null" => some (.inr .nowhere)
  | "/dev/full" => some (.inr .full)
  | "/dev/stdin" | "/dev/fd/0" => some (.inl (handles.lookup standardInput))
  | "/dev/stdout" | "/dev/fd/1" => some (.inl (handles.lookup standardOutput))
  | "/dev/stderr" | "/dev/fd/2" => some (.inl (handles.lookup standardError))
  | _ => none

/-- How a file is opened. -/
inductive Opening
  | reading
  | writing (appends : Bool)
  | both
  deriving DecidableEq

/-- Opens a path and returns the place of its stream. -/
def openPath (handles : Handles) (path : Text) (opening : Opening) :
    Task (Except FileFault Nat) := do
  match deviceOf? handles path with
  | some (.inl (some index)) => return .ok index
  | some (.inl none) => return .error .notFound
  | some (.inr stream) => return .ok (← newStream stream)
  | none => pure ()
  let target := Path.ofText path
  let opened ← act (ε := FileFault) do
    match opening with
    | .reading =>
      let location ← Action.look (·.locate .target target)
      pure (Stream.file location 0 false)
    | .writing false =>
      let location ← Files.create target
      pure (Stream.file location 0 false)
    | .writing true | .both =>
      match ← Action.look (·.writable target) with
      | (location, some _) => pure (Stream.file location 0 (opening ≠ .both))
      | (location, none) =>
        Action.change (.place location (.file [] false))
        pure (Stream.file location 0 (opening ≠ .both))
  match opened with
  | .ok stream =>
    match stream, (← files) with
    | .file location _ _, files =>
      if files.get? location = some .fullDevice then return .ok (← newStream .full)
    | _, _ => pure ()
    return .ok (← newStream stream)
  | .error fault => return .error fault

/-- A task that starts in the working directory of this one and leaves it as it was. -/
def inPlace {α : Type} (task : Task α) : Task α := do
  let place := (← files).workingDirectory
  let result ← task
  modify fun machine =>
    { machine with
      world := { machine.world with
        files := { machine.world.files with workingDirectory := place } } }
  pure result

def moveTo (place : Location) : Task Unit :=
  modify fun machine =>
    { machine with
      world := { machine.world with
        files := { machine.world.files with workingDirectory := place } } }

end Task

/-- What a reader calls a fault, without its number. -/
def faultName (fault : FileFault) : String :=
  match fault.numbered with
  | some (_, description) => description
  | none => fault.message

namespace Process

def name (process : Process) : Text :=
  process.words.headD []

def arguments (process : Process) : List Text :=
  process.words.drop 1

/-- Writes bytes to a handle; `false` if they could not be written. -/
def writeTo (process : Process) (handle : Nat) (bytes : Bytes) : Task Bool :=
  match process.handles.lookup handle with
  | some index => Task.writeTo index bytes
  | none => pure (bytes = [])

def print (process : Process) (bytes : Bytes) : Task Unit := do
  let _ ← process.writeTo standardOutput bytes

def printText (process : Process) (text : Text) : Task Unit :=
  process.print (Utf8.encode text)

/-- Writes a line to the error stream. -/
def complain (process : Process) (line : String) : Task Unit := do
  let _ ← process.writeTo standardError (Utf8.encode (line ++ "\n").toList)

/-- All that is left of the standard input. -/
def readAll (process : Process) : Task Bytes :=
  match process.handles.lookup standardInput with
  | some index => Task.takeFrom index fun _ => false
  | none => pure []

/-- The content of an operand, a dash being the standard input. -/
def readOperand (process : Process) (operand : Text) : Task (Except FileFault Bytes) := do
  if operand = ['-'] then return .ok (← process.readAll)
  match Task.deviceOf? process.handles operand with
  | some (.inl (some index)) => return .ok (← Task.takeFrom index fun _ => false)
  | some _ => return .ok []
  | none => return (← Task.files).read (Path.ofText operand)

end Process

end ImageStaging.Host
