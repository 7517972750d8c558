import ImageStaging.CommandLine.Arguments
import ImageStaging.Text.Terminal

/-!
# What the command line says about itself
-/

namespace ImageStaging.Arguments

def programName : String := "docker-builder"

def programVersion : String := "0.1.0"

def usageLine : String :=
  s!"Usage: {programName} [OPTIONS] [-- <BUILD OPTIONS>...]"

/-- The example that follows a mistake in the arguments. -/
def usageExample : String :=
  "\n".intercalate
    ["Usage:",
      s!"  $ {programName} --src [SOURCE PATH] (--lib [LIB PATH])* (--dry)? -- [BUILD OPTIONS]",
      "Example:",
      s!"  $ {programName} \\",
      "    --src path/to/image/dir \\",
      "    --lib path/to/lib \\",
      "    --lib path/to/another/lib \\",
      "    -- -t my/image:tag"]

def helpText : String :=
  "\n".intercalate
    ["Stages a Docker build context from a Dockerfile template and shared library directories",
      "",
      usageLine,
      "",
      "Arguments:",
      "  [BUILD OPTIONS]...  Options passed to the build tool, after \x60--\x60",
      "",
      "Options:",
      "  -s, --src <SOURCE PATH>  Image source directory",
      "  -l, --lib <LIB PATH>     Library directory with shared files and variables " ++
        "(repeatable, later wins)",
      "      --dry                Print the build command and final Dockerfile instead of " ++
        "building [alias: --dry-run]",
      "      --config <PATH>      YAML configuration file",
      "  -v, --verbose            Show debug logging",
      "  -h, --help               Print help",
      "  -V, --version            Print version",
      "",
      usageExample,
      ""]

def versionText : String :=
  s!"{programName} {programVersion}\n"

namespace Stop

/-- A word as a terminal shows it. -/
def shown (word : String) : String :=
  String.ofList (Terminal.visible word.toList)

/-- What is printed when the reading of the arguments stops, on standard output for help and
version and on standard error for mistakes. -/
def text (stop : Stop) : String :=
  match stop with
  | .help => helpText
  | .version => versionText
  | mistake =>
    let complaint :=
      match mistake with
      | .unknownWord word => s!"unexpected argument '{shown word}' found"
      | .repeated usage => s!"the argument '{usage}' cannot be used multiple times"
      | .missingValue usage => s!"a value is required for '{usage}' but none was supplied"
      | .unexpectedValue value usage =>
        s!"unexpected value '{shown value}' for '{usage}' found; no more were expected"
      | .help | .version => ""
    s!"error: {complaint}\n\n{usageLine}\n\nFor more information, try '--help'.\n"

def isMistake : Stop → Bool
  | .help | .version => false
  | _ => true

def exitCode (stop : Stop) : Nat :=
  if stop.isMistake then 2 else 0

end Stop

end ImageStaging.Arguments
