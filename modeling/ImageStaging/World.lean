import ImageStaging.FileSystem.Change
import ImageStaging.Invocation
import ImageStaging.Log.Event

/-!
# Actions on a world

A run acts on a world: the files, the two output streams, the log and the launches of the build
tool so far. An action that fails keeps what it did before it failed. Every change of the files
goes through `edit`, which also enters it in the journal, so the journal holds every state that
the files were in. What the surroundings have in store for a run is part of the world as well: how
much standard output takes, and which writes and syncs of files fail.
-/

namespace ImageStaging

/-- Why a write or a sync of an open file fails, and how much of a write was taken by then. -/
structure StorageFault where
  fault : FileFault
  taken : Nat := 0
  deriving DecidableEq

structure World where
  files : FileSystem
  journal : List Change := []
  log : List Log.Event := []
  /-- What was written to standard output. -/
  output : Bytes := []
  /-- How many more bytes standard output takes, if there is a bound. -/
  room : Option Nat := none
  /-- What becomes of the writes and syncs of open files that are to come, in their order. All that
  follow the last one here succeed. -/
  storage : List (Option StorageFault) := []
  /-- What a build tool wrote to standard error. -/
  toolErrors : Bytes := []
  launches : List Invocation := []

/-- What standard output takes of some bytes. -/
def World.taken (world : World) (bytes : Bytes) : Bytes :=
  match world.room with
  | none => bytes
  | some room => bytes.take room

abbrev Action (ε : Type) := ExceptT ε (StateM World)

namespace Action

variable {ε δ α : Type}

def look (question : FileSystem → Except FileFault α) : Action FileFault α := do
  match question (← get).files with
  | .ok answer => pure answer
  | .error fault => throw fault

def change (step : Change) : Action ε Unit :=
  modify fun world =>
    { world with files := world.files.apply step, journal := world.journal ++ [step] }

def edit (request : FileSystem.Edit) : Action FileFault Unit := do
  change (← look request)

def note (event : Log.Event) : Action ε Unit :=
  modify fun world => { world with log := world.log ++ [event] }

/-- The outcome of an action as a value, whether it failed or not. -/
def attempt (action : Action ε α) : Action δ (Except ε α) :=
  ExceptT.mk do pure (.ok (← action.run))

/-- The same action, its fault told in other words. -/
def blaming (action : Action ε α) (tell : ε → δ) : Action δ α := do
  match ← attempt action with
  | .ok value => pure value
  | .error fault => throw (tell fault)

/-- What storage answers to the next write or sync of an open file. -/
def askStorage : Action ε (Option StorageFault) :=
  modifyGet fun world =>
    (world.storage.head?.join, { world with storage := world.storage.tail })

/-- Writes to standard output as long as it takes bytes; `false` if it took too few. -/
def print (bytes : Bytes) : Action ε Bool := do
  let world ← get
  set { world with
    output := world.output ++ world.taken bytes
    room := world.room.map (· - bytes.length) }
  pure (world.room.all (bytes.length ≤ ·))

end Action

end ImageStaging
