import ImageStaging.Executable

/-!
# The program

The files that a run may look at are taken from the disk into a file system, the run is computed,
and its journal of changes is then carried out on the disk. The build tools that can be launched are
the programs of the host.
-/

namespace ImageStaging.Disk

def pathOf (location : Location) : String :=
  location.toPath.display

/-- The location of an absolute path that has no links in it. -/
def locationOf? (path : String) : Option Location :=
  ((Path.ofString path).pieces.filter (· ≠ [])).mapM Name.ofBytes?

/-- The disk does not tell which files may be executed. Those that name an interpreter are taken to
be. -/
def fileOf (content : Bytes) : Entry :=
  .file content (Host.Launch.interpreter? content).isSome

/-- Takes in the entry at a location and the directories above it, and says what it is. -/
partial def takeEntry (location : Location) : StateT FileSystem IO (Option Entry) := do
  if let some entry := (← get).get? location then
    return some entry
  let _ ← takeEntry location.dropLast
  let path := (← IO.currentDir).join (pathOf location)
  match ← path.symlinkMetadata.toBaseIO with
  | .error _ => return none
  | .ok metadata =>
    let entry ← match metadata.type with
      | .dir => pure Entry.directory
      | .file => pure (fileOf (← IO.FS.readBinFile path).toList)
      | .symlink =>
        match ← (IO.FS.realPath path).toBaseIO with
        | .ok target => pure (.link (Path.ofString target.toString))
        | .error _ => pure (.link (Path.ofString path.toString))
      | .other => pure .fullDevice
    modify (·.place location entry)
    return some entry

/-- Takes in an entry with all that is below it and all that its links lead to. -/
partial def takeTree (location : Location) : StateT FileSystem IO Unit := do
  let known := ((← get).get? location).isSome && location ≠ []
  match ← takeEntry location with
  | some .directory =>
    let path := (← IO.currentDir).join (pathOf location)
    for item in ← path.readDir do
      if let some name := Name.ofBytes? (Utf8.encode item.fileName.toList) then
        takeTree (location ++ [name])
  | some (.link target) =>
    unless known do
      if let some found := locationOf? target.display then
        unless found = location do takeTree found
  | _ => pure ()

/-- Carries out a change that was already made in the file system. -/
def carryOut (files : FileSystem) (change : Change) : IO FileSystem := do
  match change with
  | .place location .directory => IO.FS.createDir (pathOf location)
  | .place location (.file content executable) =>
    IO.FS.writeBinFile (pathOf location) ⟨content.toArray⟩
    let right : IO.FileRight :=
      { user := { read := true, write := true, execution := executable }
        group := { read := true, execution := executable }
        other := { read := true, execution := executable } }
    IO.setAccessRights (pathOf location) right
  | .place _ _ => pure ()
  | .remove location =>
    if files.get? location = some .directory then IO.FS.removeDirAll (pathOf location)
    else IO.FS.removeFile (pathOf location)
  | .move source target => IO.FS.rename (pathOf source) (pathOf target)
  return files.apply change

/-- The paths that a run starts from. -/
def startPaths (words : List String) : List String :=
  match Arguments.ofWords words with
  | .ok arguments =>
    (arguments.sourcePath :: arguments.libraryPaths ++ arguments.config.toList).filter (· ≠ "")
  | .error _ => []

/-- Takes in what a path names, and the links that stand in the path itself. -/
def takePath (here : Location) (path : String) : StateT FileSystem IO Unit := do
  if let some spelled := (Path.ofString path).absolute? (some (Location.toPath here)) then
    if let some location := locationOf? spelled.display then
      let _ ← takeEntry location
  if let .ok found ← (IO.FS.realPath path).toBaseIO then
    if let some location := locationOf? found.toString then
      takeTree location

end ImageStaging.Disk

open ImageStaging

def main (words : List String) : IO UInt32 := do
  let workingDirectory ← IO.FS.realPath (← IO.currentDir)
  let here := (Disk.locationOf? workingDirectory.toString).getD []
  let paths := "." :: Disk.startPaths words
  let (_, files) ← (paths.forM (Disk.takePath here)).run (.emptyAt here)
  let outcome := Executable.run words (← IO.getEnv "RUST_LOG") { files }
  let _ ← outcome.world.journal.foldlM Disk.carryOut files
  (← IO.getStdout).write ⟨outcome.output.toArray⟩
  (← IO.getStderr).write ⟨outcome.errors.toArray⟩
  return outcome.exitCode.toUInt32
