import ImageStaging.Failure
import ImageStaging.Files

/-!
# Replacing a file as a whole

New content is written to a sibling of the target, which then takes the target's place in one
step. The target is untouched until that step, and the sibling is cleared away if it fails.
-/

namespace ImageStaging.Replacement

/-- The path of the sibling: `.NAME.tmp` beside a target called `NAME`. -/
def temporary? (path : Path) : Option Path := do
  let name ← path.fileName?
  let text ← Utf8.decode? name
  let directory := path.parent?.getD (Path.ofString ".")
  some (directory.join (Path.ofText ('.' :: text ++ ['.', 't', 'm', 'p'])))

/-- Takes the sibling away, if it can be. -/
def discard (temporary : Path) : Action StagingFault Unit := do
  let _ ← Action.attempt (Action.edit (FileSystem.removeFile temporary))

/-- Runs a step; if it fails, takes the sibling away before telling the fault. -/
def orDiscard (temporary : Path) (tell : FileFault → StagingFault)
    (step : Action FileFault Unit) : Action StagingFault Unit := do
  match ← Action.attempt step with
  | .ok () => pure ()
  | .error fault =>
    discard temporary
    throw (tell fault)

def makeParent (path : Path) : Action StagingFault Unit := do
  match path.parent? with
  | none => pure ()
  | some parent =>
    match (← get).files.exists? parent with
    | .ok true => pure ()
    | _ => (Files.makeDirectories parent).blaming (.createParent parent)

def replace (path : Path) (content : Bytes) : Action StagingFault Unit := do
  makeParent path
  match temporary? path with
  | none => throw (.namelessTarget path)
  | some temporary =>
    let location ← (Files.create temporary).blaming (.createTemporary temporary)
    orDiscard temporary (.writeTemporary temporary) (Files.write location content)
    orDiscard temporary .syncTemporary (Files.sync location)
    orDiscard temporary (.replace path) (Action.edit (FileSystem.rename temporary path))

end ImageStaging.Replacement
