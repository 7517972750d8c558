import ImageStaging.Failure
import ImageStaging.Files

/-!
# Copying a tree

A copy holds files and directories only: links in the source are followed. The walk goes through
each directory in the order of its names, which are read when the walk comes to it, and ends with a
fault at a link that leads back to a directory it is in. A directory that cannot be read is made in
the copy before the walk ends. A path is longer than the path of the
directory above it, so the bound on paths also bounds the walk.
-/

namespace ImageStaging.TreeCopy

/-- A directory that the walk is in. -/
structure Ancestor where
  path : Path
  location : Location

def copyFile (source target : Path) : Action StagingFault Unit := do
  if let some parent := target.parent? then
    (Files.makeDirectories parent).blaming (.createDirectory parent)
  (Files.copy source target).blaming (.copy source target)
  Action.note ⟨.copying, .debug, "copied file", [("from", source.display), ("to", target.display)]⟩

/-- What stands at a path of the walk, a link being followed unless it closes a loop. -/
def follow (ancestors : List Ancestor) (path : Path) (entry : Entry) : Action WalkFault Entry := do
  match entry with
  | .link _ =>
    let location ← (Action.look (·.locate .target path)).blaming (.unreadable path)
    match (← get).files.get? location with
    | some .directory =>
      match ancestors.find? (·.location = location) with
      | some ancestor => throw (.loop path ancestor.path)
      | none => pure .directory
    | some found => pure found
    | none => throw (.unreadable path .notFound)
  | found => pure found

/-- The location of a directory and the names in it. -/
def openDirectory (files : FileSystem) (path : Path) :
    Except FileFault (Location × List Name) := do
  let location ← files.locate .target path
  let names ← files.list path
  pure (location, names)

/-- Copies what stands at a path of the walk and returns how many files it held. -/
def visit (source target : Path) :
    Nat → List Ancestor → Path → Path → Entry → Action StagingFault Nat
  | 0, _, path, _, _ => throw (.walk source (.unreadable path .nameTooLong))
  | depth + 1, ancestors, path, relative, entry => do
    match ← (follow ancestors path entry).blaming (.walk source) with
    | .directory =>
      let opened ← Action.attempt (Action.look (openDirectory · path))
      let destination := target.join relative
      (Files.makeDirectories destination).blaming (.createDirectory destination)
      match opened with
      | .error fault => throw (.walk source (.unreadable path fault))
      | .ok (location, names) =>
        (names.mergeSort Name.le).foldlM (fun copied name => do
          let entry := ((← get).files.get? (location ++ [name])).getD .directory
          let more ← visit source target depth (⟨path, location⟩ :: ancestors)
            (path.join name.toPath) (relative.join name.toPath) entry
          pure (copied + more)) 0
    | _ =>
      copyFile path (target.join relative)
      pure 1

/-- Copies a file or a directory tree and returns how many files were copied. -/
def copy (source target : Path) : Action StagingFault Nat := do
  let entry ← (Action.look (·.examine source)).blaming (.inspect source)
  if entry.isFile then
    copyFile source target
    pure 1
  else
    let entry ← (Action.look (·.examineLink source)).blaming fun fault =>
      .walk source (.unreadable source fault)
    visit source target (FileSystem.pathLimit + 1) [] source ⟨[]⟩ entry

end ImageStaging.TreeCopy
