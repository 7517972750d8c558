import ImageStaging.World

/-!
# Working with files

These actions are made of several edits. One that fails keeps the edits made before the fault.
-/

namespace ImageStaging.Files

open FileSystem (makeDirectory removeDirectory)

/-- Makes a directory and the missing ones above it. `depth` bounds how many are made. -/
def makeDirectoriesWithin : Nat → Path → Action FileFault Unit
  | 0, _ => throw .nameTooLong
  | depth + 1, path => do
    if path.bytes = [] then return
    match ← Action.attempt (Action.edit (makeDirectory path)) with
    | .ok () => pure ()
    | .error .notFound =>
      match path.parent? with
      | none => throw .notFound
      | some parent =>
        makeDirectoriesWithin depth parent
        settle path
    | .error fault => accept path fault
where
  accept (path : Path) (fault : FileFault) : Action FileFault Unit := do
    unless (← get).files.isDirectory path do throw fault
  settle (path : Path) : Action FileFault Unit := do
    match ← Action.attempt (Action.edit (makeDirectory path)) with
    | .ok () => pure ()
    | .error fault => accept path fault

/-- Makes a directory and the missing ones above it; a directory that is there already will do. -/
def makeDirectories (path : Path) : Action FileFault Unit :=
  makeDirectoriesWithin (path.bytes.length + 2) path

/-- Empties a directory and takes it away. What was in it is gone even if it has to stay, and it
stays if its path led through what was in it. -/
def removeTree (path : Path) : Action FileFault Unit := do
  let location ← Action.look (·.locate .entry path)
  for name in (← get).files.children location do
    Action.change (.remove (location ++ [name]))
  match ← Action.attempt (Action.edit (removeDirectory path)) with
  | .ok () | .error .notFound => pure ()
  | .error fault => throw fault

/-- Opens a file for writing: it is empty afterwards, and is made if it was not there. -/
def create (path : Path) : Action FileFault Location := do
  let (location, entry) ← Action.look (·.writable path)
  match entry with
  | some .fullDevice => pure ()
  | some (.file _ executable) => Action.change (.place location (.file [] executable))
  | _ => Action.change (.place location (.file [] false))
  pure location

/-- Writes the content of an open file. If storage fails, what it took by then is in the file.
Writing nothing always succeeds. -/
def write (location : Location) (content : Bytes) : Action FileFault Unit := do
  if content = [] then return
  match (← get).files.get? location with
  | some (.file _ executable) =>
    match ← Action.askStorage with
    | none => Action.change (.place location (.file content executable))
    | some failed =>
      Action.change (.place location (.file (content.take failed.taken) executable))
      throw failed.fault
  | _ => throw .noSpace

/-- Asks that an open file be stored for good, which a device cannot do. -/
def sync (location : Location) : Action FileFault Unit := do
  match (← get).files.get? location with
  | some (.file _ _) =>
    match ← Action.askStorage with
    | none => pure ()
    | some failed => throw failed.fault
  | _ => throw .invalidArgument

/-- Gives an open file all of a content at once. -/
def fill (location : Location) (content : Bytes) : Action FileFault Unit := do
  if content = [] then return
  match (← get).files.get? location with
  | some (.file _ executable) => Action.change (.place location (.file content executable))
  | _ => throw .noSpace

/-- Copies content and executable bit. The source is read after the target was emptied, so a file
copied onto itself is empty afterwards. The bytes are moved by the kernel, and there is room for
them unless the target is a device. -/
def copy (source target : Path) : Action FileFault Unit := do
  let sourceLocation ← Action.look (·.locate .target source)
  match (← get).files.get? sourceLocation with
  | some (.file _ executable) =>
    let (location, entry) ← Action.look (·.writable target)
    unless entry = some .fullDevice do
      Action.change (.place location (.file [] executable))
    match (← get).files.get? sourceLocation with
    | some (.file content _) => fill location content
    | _ => pure ()
  | _ => throw .notRegular

end ImageStaging.Files
