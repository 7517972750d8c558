import ImageStaging.FileSystem.Query
import ImageStaging.Host.Program

/-!
# From a command name to a program

A name without a slash is looked for in the directories of a search path only. A name with one is a
path to a program of the host or to an executable file, whose first line tells the program that
reads it.
-/

namespace ImageStaging.Host

/-- A program and its words, of which the first is its own name. -/
structure Launch where
  program : Program
  words : List Text
  deriving DecidableEq

namespace Launch

def isBlank (c : Char) : Bool :=
  c = ' ' || c = '\t'

/-- The interpreter that the first line of a file names, and the one argument it may give it. -/
def interpreter? (content : Bytes) : Option (Text × List Text) :=
  match content with
  | 0x23 :: 0x21 :: rest =>
    let line := Utf8.decodeLossy (rest.takeWhile (· ≠ 0x0A))
    let command := Text.dropEnd isBlank (line.dropWhile isBlank)
    let name := command.takeWhile (!isBlank ·)
    let argument := (command.drop name.length).dropWhile isBlank
    if name = [] then none
    else some (name, if argument = [] then [] else [argument])
  | _ => none

/-- How many interpreters may be read by one another. -/
def interpreterLimit : Nat := 5

/-- The launch of a path. -/
def ofPathWithin (files : FileSystem) : Nat → Text → List Text → Except FileFault Launch
  | 0, _, _ => .error .tooManyLinks
  | depth + 1, path, arguments =>
    match Program.at? (String.ofList path) with
    | some program => .ok ⟨program, path :: arguments⟩
    | none => do
      match ← files.examine (Path.ofText path) with
      | .file content true =>
        match interpreter? content with
        | none => throw .notExecutableFormat
        | some (name, argument) =>
          ofPathWithin files depth name (argument ++ path :: arguments)
      | _ => throw .permissionDenied

def ofPath (files : FileSystem) (path : Text) (arguments : List Text) : Except FileFault Launch :=
  ofPathWithin files interpreterLimit path arguments

/-- A program goes by the name that it was looked for by. -/
def called (launch : Launch) (path name : Text) : Launch :=
  if launch.words.head? = some path then ⟨launch.program, name :: launch.words.drop 1⟩ else launch

/-- The launch of a name in the first directory that has it. A file that may not be executed is only
told of if no directory has another. -/
def ofDirectories (files : FileSystem) (name : Text) (arguments : List Text)
    (fault : FileFault) : List Text → Except FileFault Launch
  | [] => .error fault
  | directory :: rest =>
    let path := if directory = [] then name else directory ++ '/' :: name
    match ofPath files path arguments with
    | .ok launch => .ok (launch.called path name)
    | .error .notFound | .error .notADirectory => ofDirectories files name arguments fault rest
    | .error .permissionDenied => ofDirectories files name arguments .permissionDenied rest
    | .error other => .error other

def usualSearchPath : Text :=
  [':'].intercalate (Program.directories.map String.toList)

/-- The launch of a command, whose name is looked for if it has no slash. -/
def ofCommand (files : FileSystem) (searchPath : Text) (command : Text) (arguments : List Text) :
    Except FileFault Launch :=
  if command.contains '/' then ofPath files command arguments
  else if command = [] then .error .notFound
  else if 255 < (Utf8.encode command).length then .error .nameTooLong
  else if command = ['.'] || command = ['.', '.'] then .error .permissionDenied
  else ofDirectories files command arguments .notFound (Text.fields ':' searchPath)

end Launch

end ImageStaging.Host
