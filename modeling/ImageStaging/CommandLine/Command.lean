import ImageStaging.Build
import ImageStaging.CommandLine.Arguments
import ImageStaging.Config.Reading

/-!
# The build command

The arguments are checked, the configuration is read, the paths are made absolute and the build is
run, in this order.
-/

namespace ImageStaging

namespace Command

def readConfig (arguments : Arguments) : Action ConfigFault Config :=
  match arguments.config with
  | some path => Config.load (Path.ofString path)
  | none => pure {}

def run (arguments : Arguments) (tool : Build.Tool) : Action Failure Unit := do
  if let .error fault := arguments.validate then throw (.usage fault)
  let config ← (readConfig arguments).blaming .config
  let workingDirectory := (← get).files.workingDirectoryPath?
  match Request.resolve workingDirectory (Path.ofString arguments.sourcePath)
      (arguments.libraryPaths.map Path.ofString) arguments.options arguments.dryRun with
  | .error failure => throw failure
  | .ok request =>
    let _ ← Build.run request config tool

end Command

end ImageStaging
