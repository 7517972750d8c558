import ImageStaging.FileSystem.Lookup

/-!
# Looking at a file system

None of these questions changes anything. A path that leads nowhere is an answer for `exists?` and
a fault for the others.
-/

namespace ImageStaging

/-- The path of a location. -/
def Location.toPath (location : Location) : Path :=
  ⟨Path.slash :: [Path.slash].intercalate (location.map Name.bytes)⟩

namespace FileSystem

/-- The path of the working directory, unless that directory has been taken away. -/
def workingDirectoryPath? (files : FileSystem) : Option Path :=
  if files.get? files.workingDirectory = some .directory then
    some (Location.toPath files.workingDirectory)
  else none

/-- The entry that a path names, links at its end followed. -/
def examine (files : FileSystem) (path : Path) : Except FileFault Entry := do
  let location ← files.locate .target path
  pure ((files.get? location).getD .directory)

/-- The entry that a path names, a link at its end being itself the answer. -/
def examineLink (files : FileSystem) (path : Path) : Except FileFault Entry := do
  let location ← files.locate .entry path
  pure ((files.get? location).getD .directory)

def exists? (files : FileSystem) (path : Path) : Except FileFault Bool :=
  match files.examine path with
  | .ok _ => .ok true
  | .error .notFound => .ok false
  | .error fault => .error fault

def isDirectory (files : FileSystem) (path : Path) : Bool :=
  match files.examine path with
  | .ok .directory => true
  | _ => false

/-- The content of a file. Files carry no permissions, and storage does not fail here: once its path
is looked up a regular file can be read, and only what it holds can keep it from being a text. -/
def read (files : FileSystem) (path : Path) : Except FileFault Bytes := do
  match ← files.examine path with
  | .file content _ => pure content
  | .directory => throw .isADirectory
  | .link _ | .fullDevice => pure []

def readText (files : FileSystem) (path : Path) : Except FileFault Text := do
  match Utf8.decode? (← files.read path) with
  | some text => pure text
  | none => throw .notText

/-- The content as a text for the eye: whatever is not UTF-8 is shown as a replacement. -/
def readForDisplay (files : FileSystem) (path : Path) : Except FileFault Text := do
  pure (Utf8.decodeLossy (← files.read path))

def list (files : FileSystem) (path : Path) : Except FileFault (List Name) := do
  let location ← files.locate .target path
  match files.get? location with
  | some .directory => pure (files.children location)
  | none => throw .notFound
  | _ => throw .notADirectory

end FileSystem

end ImageStaging
