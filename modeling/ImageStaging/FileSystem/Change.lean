import ImageStaging.FileSystem.Query

/-!
# Changing a file system

A change is one indivisible step: an entry placed, an entry taken away, a file or link moved. An
edit is a request to change the file system; it either names the change that fulfils it or the
fault that forbids it, so nothing is changed by a request that fails.
-/

namespace ImageStaging

inductive Change
  | place (location : Location) (entry : Entry)
  | remove (location : Location)
  | move (source target : Location)

namespace FileSystem

def apply (files : FileSystem) : Change → FileSystem
  | .place location entry => files.place location entry
  | .remove location => files.prune location
  | .move source target =>
    match files.get? source with
    | some entry => (files.prune source).place target entry
    | none => files

def applyAll (files : FileSystem) (changes : List Change) : FileSystem :=
  changes.foldl apply files

@[simp] theorem applyAll_nil (files : FileSystem) : files.applyAll [] = files := rfl

@[simp] theorem applyAll_append (files : FileSystem) (first second : List Change) :
    files.applyAll (first ++ second) = (files.applyAll first).applyAll second :=
  List.foldl_append

abbrev Edit := FileSystem → Except FileFault Change

/-- A new directory, where nothing stands. -/
def makeDirectory (path : Path) : Edit := fun files => do
  match ← files.lastStep path with
  | .named directory name =>
    let location := directory ++ [name]
    if (files.get? location).isSome then throw .alreadyExists
    else pure (.place location .directory)
  | _ => throw .alreadyExists

/-- Takes away anything but a directory. -/
def removeFile (path : Path) : Edit := fun files => do
  match ← files.lastStep path with
  | .named directory name =>
    let location := directory ++ [name]
    match files.get? location with
    | none => throw .notFound
    | some .directory => throw .isADirectory
    | some _ => if path.endsWithSlash then throw .notADirectory else pure (.remove location)
  | _ => throw .isADirectory

/-- Takes away a directory with nothing in it. -/
def removeDirectory (path : Path) : Edit := fun files => do
  match ← files.lastStep path with
  | .named directory name =>
    let location := directory ++ [name]
    match files.get? location with
    | none => throw .notFound
    | some .directory =>
      if (files.children location).isEmpty then pure (.remove location) else throw .notEmpty
    | some _ => throw .notADirectory
  | .stay => throw .invalidArgument
  | .up => throw .notEmpty
  | .root => throw .busy

/-- The location at which a path names a file to write, and what is there now. A path that does not
end in a name asks for a directory, and so does the working directory once it was taken away; no
file can be made there. -/
def writable (files : FileSystem) (path : Path) :
    Except FileFault (Location × Option Entry) := do
  match ← files.resolve .creation path with
  | .absent directory name =>
    if files.get? directory = some .directory then pure (directory ++ [name], none)
    else throw .notFound
  | .present location =>
    match path.steps.getLast?, files.get? location with
    | _, some .directory => throw .isADirectory
    | some (.enter _), some entry => pure (location, some entry)
    | _, _ => throw .isADirectory

/-- What is there can be written unless it is a directory. -/
theorem writable_of_present {files : FileSystem} {path : Path} {here location : Location}
    {entry : Option Entry} (answer : files.resolve .creation path = .ok (.present here))
    (found : files.writable path = .ok (location, entry)) :
    location = here ∧ ∃ standing, entry = some standing ∧ files.get? here = some standing ∧
      standing ≠ .directory := by
  rw [writable, answer] at found
  simp only [bind, Except.bind] at found
  split at found
  · cases found
  · next standing notDirectory _ stands =>
    obtain ⟨rfl, rfl⟩ := Prod.mk.inj (Except.ok.inj found)
    exact ⟨rfl, standing, rfl, stands, notDirectory⟩
  · cases found

/-- A file can only be written where the last component of a path is a name. -/
theorem endsInName_of_writable {files : FileSystem} {path : Path} {here location : Location}
    {entry : Option Entry} (answer : files.resolve .creation path = .ok (.present here))
    (found : files.writable path = .ok (location, entry)) :
    ∃ name, path.steps.getLast? = some (.enter name) := by
  rw [writable, answer] at found
  simp only [bind, Except.bind] at found
  split at found
  · cases found
  · next name _ _ ends _ => exact ⟨name, ends⟩
  · cases found

/-- A file that is missing can be made in a directory that is there. -/
theorem writable_of_absent {files : FileSystem} {path : Path} {directory location : Location}
    {name : Name} {entry : Option Entry}
    (answer : files.resolve .creation path = .ok (.absent directory name))
    (found : files.writable path = .ok (location, entry)) :
    files.get? directory = some .directory ∧ location = directory ++ [name] ∧ entry = none := by
  rw [writable, answer] at found
  simp only [bind, Except.bind] at found
  split at found
  · next isDirectory =>
    obtain ⟨rfl, rfl⟩ := Prod.mk.inj (Except.ok.inj found)
    exact ⟨isDirectory, rfl, rfl⟩
  · cases found

/-- Moves a file or link over whatever is at the target, unless a directory is. -/
def rename (source target : Path) : Edit := fun files => do
  match ← files.lastStep source, ← files.lastStep target with
  | .named sourceDirectory sourceName, .named targetDirectory targetName =>
    let sourceLocation := sourceDirectory ++ [sourceName]
    let targetLocation := targetDirectory ++ [targetName]
    match files.get? sourceLocation, files.get? targetLocation with
    | none, _ => throw .notFound
    | some .directory, _ => throw .isADirectory
    | some _, entry =>
      if target.endsWithSlash then throw .notADirectory
      else if entry = some .directory then throw .isADirectory
      else pure (.move sourceLocation targetLocation)
  | _, _ => throw .busy

end FileSystem

end ImageStaging
