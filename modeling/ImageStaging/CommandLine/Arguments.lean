import ImageStaging.Failure

/-!
# Command-line arguments

Words are read from left to right and the first that cannot be accepted stops the reading, as do
the requests for help and for the version. A setting that got its value from the word after it is
stored only when the next setting or flag is recognised, or at the end, so a mistake in it gives
way to an unknown word that comes first. Two dashes end the reading: all that follows them belongs
to the build tool.
-/

namespace ImageStaging

structure Arguments where
  source : Option String := none
  libraries : List String := []
  dryRun : Bool := false
  config : Option String := none
  verbose : Bool := false
  options : List String := []
  deriving DecidableEq, Repr

namespace Arguments

/-- The source path without blanks at its ends. -/
def sourcePath (arguments : Arguments) : String :=
  String.ofList (Text.trim (arguments.source.getD "").toList)

def libraryPaths (arguments : Arguments) : List String :=
  arguments.libraries.map fun library => String.ofList (Text.trim library.toList)

def validate (arguments : Arguments) : Except UsageFault Unit :=
  if arguments.sourcePath = "" then .error .missingSource
  else if arguments.options = [] then .error .missingOptions
  else .ok ()

/-- What takes a value. -/
inductive Setting
  | source
  | library
  | config
  deriving DecidableEq, Repr

/-- What stands for itself. -/
inductive Flag
  | dryRun
  | verbose
  | help
  | version
  deriving DecidableEq, Repr

def Setting.usage : Setting → String
  | .source => "--src <SOURCE PATH>"
  | .library => "--lib <LIB PATH>"
  | .config => "--config <PATH>"

def Flag.usage : Flag → String
  | .dryRun => "--dry"
  | .verbose => "--verbose"
  | .help => "--help"
  | .version => "--version"

/-- Why the reading of the arguments stopped before their end. -/
inductive Stop
  | unknownWord (word : String)
  | repeated (usage : String)
  | missingValue (usage : String)
  | unexpectedValue (value usage : String)
  | help
  | version
  deriving DecidableEq, Repr

inductive Known
  | setting (setting : Setting)
  | flag (flag : Flag)

def Known.ofLong? (name : Text) : Option Known :=
  match String.ofList name with
  | "src" => some (.setting .source)
  | "lib" => some (.setting .library)
  | "config" => some (.setting .config)
  | "dry" | "dry-run" => some (.flag .dryRun)
  | "verbose" => some (.flag .verbose)
  | "help" => some (.flag .help)
  | "version" => some (.flag .version)
  | _ => none

def Known.ofShort? (letter : Char) : Option Known :=
  match letter with
  | 's' => some (.setting .source)
  | 'l' => some (.setting .library)
  | 'v' => some (.flag .verbose)
  | 'h' => some (.flag .help)
  | 'V' => some (.flag .version)
  | _ => none

/-- The arguments read so far, and a setting whose value is awaited or not stored yet. -/
structure Reading where
  arguments : Arguments := {}
  pending : Option (Setting × Option String) := none

namespace Reading

/-- Stores the value of a setting. Only the library may be given more than once, and the path of a
configuration file may not be empty. -/
def store (reading : Reading) (setting : Setting) (value : String) : Except Stop Reading :=
  let arguments := reading.arguments
  match setting with
  | .source =>
    if arguments.source.isSome then .error (.repeated setting.usage)
    else .ok { reading with arguments := { arguments with source := some value } }
  | .library =>
    .ok { reading with arguments := { arguments with libraries := arguments.libraries ++ [value] } }
  | .config =>
    if arguments.config.isSome then .error (.repeated setting.usage)
    else if value = "" then .error (.missingValue setting.usage)
    else .ok { reading with arguments := { arguments with config := some value } }

/-- Stores what is pending. -/
def settle (reading : Reading) : Except Stop Reading :=
  match reading.pending with
  | none => .ok reading
  | some (setting, none) => .error (.missingValue setting.usage)
  | some (setting, some value) => { reading with pending := none }.store setting value

def raise (reading : Reading) (flag : Flag) : Except Stop Reading := do
  let settled ← reading.settle
  let arguments := settled.arguments
  match flag with
  | .dryRun =>
    if arguments.dryRun then throw (.repeated flag.usage)
    pure { settled with arguments := { arguments with dryRun := true } }
  | .verbose =>
    if arguments.verbose then throw (.repeated flag.usage)
    pure { settled with arguments := { arguments with verbose := true } }
  | .help => throw .help
  | .version => throw .version

/-- A setting with the value attached to it, or one that waits for the next word. -/
def await (reading : Reading) (setting : Setting) (attached : Option Text) :
    Except Stop Reading := do
  let settled ← reading.settle
  match attached with
  | some value => settled.store setting (String.ofList value)
  | none => pure { settled with pending := some (setting, none) }

/-- A word of two dashes and a name, which may have a value after an equals sign. -/
def readLong (reading : Reading) (body : Text) : Except Stop Reading :=
  let (name, value) :=
    match Text.splitFirst '=' body with
    | some (name, value) => (name, some value)
    | none => (body, none)
  match Known.ofLong? name, value with
  | some (.setting setting), value => reading.await setting value
  | some (.flag flag), none => reading.raise flag
  | some (.flag flag), some value => .error (.unexpectedValue (String.ofList value) flag.usage)
  | none, _ => .error (.unknownWord (String.ofList ('-' :: '-' :: name)))

/-- A word of one dash and letters. A setting takes the rest of the word as its value, without an
equals sign that may come first. -/
def readShort (reading : Reading) : Text → Except Stop Reading
  | [] => .ok reading
  | letter :: rest =>
    match Known.ofShort? letter with
    | some (.flag flag) =>
      match reading.raise flag with
      | .ok next => next.readShort rest
      | .error stop => .error stop
    | some (.setting setting) =>
      match rest with
      | [] => reading.await setting none
      | '=' :: value => reading.await setting (some value)
      | value => reading.await setting (some value)
    | none => .error (.unknownWord (String.ofList ['-', letter]))

/-- A word that is no option is the value of the setting before it, or else unknown. -/
def readValue (reading : Reading) (word : Text) : Except Stop Reading :=
  match reading.pending with
  | some (setting, none) =>
    .ok { reading with pending := some (setting, some (String.ofList word)) }
  | _ => .error (.unknownWord (String.ofList word))

def readWord (reading : Reading) (word : Text) : Except Stop Reading :=
  match word with
  | '-' :: '-' :: body => reading.readLong body
  | '-' :: letter :: rest => reading.readShort (letter :: rest)
  | _ => reading.readValue word

end Reading

def doubleDash : String := "--"

def readFrom : Reading → List String → Except Stop Arguments
  | reading, [] => do
    let settled ← reading.settle
    pure settled.arguments
  | reading, word :: rest =>
    if word = doubleDash then do
      let settled ← reading.settle
      pure { settled.arguments with options := rest }
    else
      match reading.readWord word.toList with
      | .ok next => readFrom next rest
      | .error stop => .error stop

/-- The arguments that a list of words gives. -/
def ofWords (words : List String) : Except Stop Arguments :=
  readFrom {} words

end Arguments

end ImageStaging
