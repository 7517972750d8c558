import ImageStaging.FileSystem.Basic
import ImageStaging.FileSystem.Fault

/-!
# From a path to a location

Looking a path up walks its steps from the root or from the working directory. A link met on the
way is replaced by the steps of its target; a link at the end is followed if the purpose of the walk
asks for it or a slash behind it demands a directory. At most `linkLimit` links are followed, and
that bound is what ends a walk through links that lead back to themselves.
-/

namespace ImageStaging

/-- What one piece of a path asks for. -/
inductive PathStep
  | stay
  | up
  | enter (name : Name)
  /-- No entry can have such a name. -/
  | impossible

namespace PathStep

def ofPiece (piece : Bytes) : PathStep :=
  if piece = [Path.dot] then .stay
  else if piece = [Path.dot, Path.dot] then .up
  else match Name.ofBytes? piece with
    | some name => .enter name
    | none => .impossible

end PathStep

/-- The steps of a path: what stands between its slashes, where anything does. -/
def Path.steps (path : Path) : List PathStep :=
  (path.pieces.filter (· ≠ [])).map PathStep.ofPiece

namespace FileSystem

/-- How many bytes a path may have. -/
def pathLimit : Nat := 4095

def linkLimit : Nat := 40

inductive Found
  | present (location : Location)
  /-- Only the last name is missing, from a directory that is there. -/
  | absent (directory : Location) (name : Name)

/-- What a walk is for, which decides about its last step. -/
inductive Purpose
  /-- To come to an entry that may be a link. -/
  | entry
  /-- To come to what an entry leads to, if it is a link. -/
  | target
  /-- To come to a file that can be made if it is missing. A slash behind its name forbids that. -/
  | creation
  deriving DecidableEq

/-- A walk that has come to a directory: the steps it still has to take and whether a slash behind
the last one demands a directory. -/
structure Walk where
  here : Location
  ahead : List PathStep
  purpose : Purpose
  wantDirectory : Bool

/-- The walk goes on at the target of a link. -/
def Walk.through (walk : Walk) (target : Path) : Walk :=
  { walk with
    here := if target.isAbsolute then [] else walk.here
    ahead := target.steps ++ walk.ahead
    wantDirectory := walk.wantDirectory || (walk.ahead.isEmpty && target.endsWithSlash) }

/-- The walk up to the next link that has to be followed, which is handed on. -/
def descend (files : FileSystem) (onLink : Walk → Path → Except FileFault Found)
    (purpose : Purpose) (wantDirectory : Bool) :
    Location → List PathStep → Except FileFault Found
  | here, [] => .ok (.present here)
  | here, .stay :: ahead => descend files onLink purpose wantDirectory here ahead
  | here, .up :: ahead => descend files onLink purpose wantDirectory here.dropLast ahead
  | here, step :: ahead =>
    if ahead.isEmpty && wantDirectory && purpose = .creation then .error .isADirectory
    else
      match step with
      | .enter name =>
        let location := here ++ [name]
        match files.get? location with
        | none => if ahead.isEmpty then .ok (.absent here name) else .error .notFound
        | some .directory => descend files onLink purpose wantDirectory location ahead
        | some (.link target) =>
          if ahead.isEmpty && purpose = .entry && !wantDirectory then .ok (.present location)
          else onLink ⟨here, ahead, purpose, wantDirectory⟩ target
        | some _ =>
          if ahead.isEmpty && !wantDirectory then .ok (.present location)
          else .error .notADirectory
      | _ => .error .nameTooLong

def travel (files : FileSystem) : Nat → Walk → Except FileFault Found
  | 0, walk =>
    descend files (fun _ _ => .error .tooManyLinks) walk.purpose walk.wantDirectory walk.here
      walk.ahead
  | links + 1, walk =>
    descend files (fun next target => travel files links (next.through target))
      walk.purpose walk.wantDirectory walk.here walk.ahead

/-- The checks that a path has to pass before it is looked up at all. -/
def checkPath (path : Path) : Except FileFault Unit :=
  if (0 : UInt8) ∈ path.bytes then .error .nulInName
  else if path.bytes = [] then .error .notFound
  else if pathLimit < path.bytes.length then .error .nameTooLong
  else .ok ()

def startOf (files : FileSystem) (path : Path) : Location :=
  if path.isAbsolute then [] else files.workingDirectory

def resolve (files : FileSystem) (purpose : Purpose) (path : Path) :
    Except FileFault Found := do
  checkPath path
  travel files linkLimit ⟨files.startOf path, path.steps, purpose, path.endsWithSlash⟩

/-- The location of what a path names. -/
def locate (files : FileSystem) (purpose : Purpose) (path : Path) :
    Except FileFault Location := do
  match ← files.resolve purpose path with
  | .present location => pure location
  | .absent _ _ => throw .notFound

/-- The last step of a path, in the directory that the steps before it lead to. -/
inductive LastStep
  | named (directory : Location) (name : Name)
  | stay
  | up
  | root

/-- Where a path would make, move or remove an entry. The last step is not followed. A name is only
looked for in a directory that is there, which the working directory need not be. -/
def lastStep (files : FileSystem) (path : Path) : Except FileFault LastStep := do
  checkPath path
  match path.steps.getLast? with
  | none => pure .root
  | some last =>
    match ← travel files linkLimit ⟨files.startOf path, path.steps.dropLast, .target, true⟩ with
    | .absent _ _ => throw .notFound
    | .present directory =>
      match last with
      | .stay => pure .stay
      | .up => pure .up
      | .enter name =>
        if files.get? directory = some .directory then pure (.named directory name)
        else throw .notFound
      | .impossible => throw .nameTooLong

end FileSystem

end ImageStaging
