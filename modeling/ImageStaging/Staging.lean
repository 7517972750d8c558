import ImageStaging.Layout
import ImageStaging.TreeCopy

/-!
# Staging a build context

A context is emptied first, whatever a previous build left at its path, and then receives the
Dockerfile or its template and the source tree. The flavour of the Dockerfile is a question to the
source alone, a template being preferred.
-/

namespace ImageStaging.Staging

/-- Leaves an empty directory at the path of the context. -/
def reset (path : Path) : Action StagingFault Unit := do
  match (← get).files.examineLink path with
  | .ok entry =>
    let removal :=
      if entry = .directory then Files.removeTree path
      else Action.edit (FileSystem.removeFile path)
    removal.blaming (.removeContext path)
    Action.note ⟨.staging, .debug, "removed previous build context", [("path", path.display)]⟩
  | .error .notFound => pure ()
  | .error fault => throw (.inspectContext path fault)
  (Files.makeDirectories path).blaming (.createContext path)

def existsAt (path : Path) : Action StagingFault Bool :=
  (Action.look (·.exists? path)).blaming (.inspect path)

/-- The flavour of the Dockerfile in a source directory, if it has one. -/
def flavour? (source : Path) : Action StagingFault (Option Flavour) := do
  if ← existsAt (source.join (Path.ofString Layout.template)) then
    pure (some .template)
  else if ← existsAt (source.join (Path.ofString Layout.dockerfile)) then
    pure (some .plain)
  else
    pure none

/-- Copies the Dockerfile and the source tree into the context. -/
def populate (source context : Path) : Action StagingFault (Option Flavour) := do
  let flavour ← flavour? source
  if let some found := flavour then
    let file := Path.ofString found.fileName
    let _ ← TreeCopy.copy (source.join file) (context.join file)
  let tree := Path.ofString Layout.sourceTree
  if ← existsAt (source.join tree) then
    let copied ← TreeCopy.copy (source.join tree) (context.join tree)
    Action.note ⟨.staging, .debug, "copied source tree", [("files", toString copied)]⟩
  pure flavour

def classify (source : Path) : Action Failure Flavour := do
  match ← (flavour? source).blaming .staging with
  | some flavour => pure flavour
  | none => throw (.missingDockerfile source)

def stage (source context : Path) : Action Failure BuildContext := do
  (reset context).blaming .staging
  let _ ← (populate source context).blaming .staging
  let flavour ← classify source
  Action.note ⟨.staging, .info, "staged build context",
    [("context", context.display), ("dockerfile", s!"\"{flavour.fileName}\"")]⟩
  pure ⟨context, flavour⟩

end ImageStaging.Staging
