import ImageStaging.Failure

/-!
# Build requests

A request says what to build: the image source, the libraries in their order, the options for the
build tool, and whether the build is only to be shown. Resolving it makes its paths absolute by
their spelling, so nothing has to exist yet.
-/

namespace ImageStaging

structure Request where
  source : Path
  libraries : List Path
  options : List String
  dryRun : Bool
  deriving DecidableEq

namespace Request

/-- The absolute spelling of a path. An empty path has none, nor has a relative one where there is
no working directory. -/
def absolutePath (workingDirectory : Option Path) (path : Path) : Except Failure Path :=
  match path.absolute? workingDirectory with
  | some absolute => .ok absolute
  | none =>
    .error (.absolutePath path (if path.bytes = [] then .empty else .noWorkingDirectory))

def resolve (workingDirectory : Option Path) (source : Path) (libraries : List Path)
    (options : List String) (dryRun : Bool) : Except Failure Request := do
  let source ← absolutePath workingDirectory source
  let libraries ← libraries.mapM (absolutePath workingDirectory)
  pure ⟨source, libraries, options, dryRun⟩

def contextPath (request : Request) (contextDirectory : String) : Path :=
  request.source.join (Path.ofString contextDirectory)

end Request

end ImageStaging
