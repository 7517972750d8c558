import ImageStaging.CommandLine.Command
import ImageStaging.CommandLine.Help
import ImageStaging.Log.Filter
import ImageStaging.Process

/-!
# What a run comes to

From the words of the command line, a setting for the log, the programs that can be launched and the
world follow all that a run does: the changes of the files, the exit code, and what is written to
the two output streams.
-/

namespace ImageStaging.Executable

structure Outcome where
  world : World
  exitCode : Nat
  output : Bytes
  errors : Bytes

def bytesOf (text : String) : Bytes :=
  Utf8.encode text.toList

/-- The outcome of words that are no arguments or that only ask for a text. It makes no difference
whether standard output takes all of that text. -/
def stopped (world : World) (stop : Arguments.Stop) : Outcome :=
  if stop.isMistake then ⟨world, stop.exitCode, world.output, bytesOf stop.text⟩
  else
    let printing : Action Empty Bool := Action.print (bytesOf stop.text)
    let (_, world) := printing.run world
    ⟨world, stop.exitCode, world.output, []⟩

/-- What is said about a failure. A mistake of usage is followed by an example. -/
def complaint (failure : Failure) : String :=
  let line := s!"Error: {failure.message}\n"
  match failure with
  | .usage _ => s!"{line}{Arguments.usageExample}\n"
  | _ => line

/-- The outcome of a run with the arguments that were read. The log comes first on the error stream,
then what the build tool wrote, then the complaint. -/
def started (spawner : Spawner) (world : World) (logSetting : Option String)
    (arguments : Arguments) : Outcome :=
  let (result, world) := (Command.run arguments (Spawner.tool spawner)).run world
  let filter := Log.Filter.ofSetting logSetting arguments.verbose
  let errors := bytesOf (filter.render world.log) ++ world.toolErrors
  match result with
  | .ok () => ⟨world, 0, world.output, errors⟩
  | .error failure =>
    ⟨world, failure.exitCode, world.output, errors ++ bytesOf (complaint failure)⟩

def runWith (spawner : Spawner) (words : List String) (logSetting : Option String)
    (world : World) : Outcome :=
  match Arguments.ofWords words with
  | .error stop => stopped world stop
  | .ok arguments => started spawner world logSetting arguments

end ImageStaging.Executable
