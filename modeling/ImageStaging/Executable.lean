import ImageStaging.CommandLine.Outcome
import ImageStaging.Host.Tool

/-!
# The executable

The program as it is run, with the programs of the host as its build tools.
-/

namespace ImageStaging.Executable

def run (words : List String) (logSetting : Option String) (world : World) : Outcome :=
  runWith (Host.spawner logSetting) words logSetting world

end ImageStaging.Executable
