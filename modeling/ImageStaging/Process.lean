import ImageStaging.Build

/-!
# Build tools that are child processes

A build tool is a program that is launched with the words of an invocation and waited for. It works
on the files and writes to the streams of the run. Which programs there are, whether one can be
launched and what it does is nothing that a build decides, so it is left to a `Spawner`.
-/

namespace ImageStaging

/-- What a child process has done by the time it has ended. -/
structure Child where
  status : ExitStatus
  changes : List Change := []
  output : Bytes := []
  errors : Bytes := []

/-- What comes of launching a program with its arguments in some files. -/
abbrev Spawner := FileSystem → String → List String → Except LaunchFault Child

/-- The world that a child process leaves behind. -/
def World.after (world : World) (child : Child) : World :=
  { world with
    files := world.files.applyAll child.changes
    journal := world.journal ++ child.changes
    output := world.output ++ child.output
    toolErrors := world.toolErrors ++ child.errors }

/-- Launches the program of an invocation, which is to end with status 0. -/
def Spawner.tool (spawner : Spawner) : Build.Tool := fun invocation => do
  match spawner (← get).files invocation.program invocation.arguments with
  | .error fault => throw (.launch invocation.program fault)
  | .ok child =>
    modify fun world => world.after child
    unless child.status = .code 0 do
      throw (.ended invocation.commandLine child.status)

end ImageStaging
