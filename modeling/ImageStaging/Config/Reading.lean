import ImageStaging.Config.Basic
import ImageStaging.World
import ImageStaging.Yaml.Node

/-!
# Reading a configuration

A configuration file is a YAML mapping. Each setting may be given once, as a scalar of any kind;
keys that mean nothing here are passed over, and a file with no content leaves every setting at
its default. What is read has to be valid.
-/

namespace ImageStaging.Config

open Yaml (Document Node)

inductive Setting
  | tool
  | verb
  | contextDirectory
  deriving DecidableEq

def Setting.key : Setting → String
  | .tool => "build_tool"
  | .verb => "build_verb"
  | .contextDirectory => "context_dir"

def Setting.ofKey? (key : String) : Option Setting :=
  [Setting.tool, .verb, .contextDirectory].find? fun setting => setting.key = key

def Setting.put (setting : Setting) (value : String) (config : Config) : Config :=
  match setting with
  | .tool => { config with buildTool := value }
  | .verb => { config with buildVerb := value }
  | .contextDirectory => { config with contextDirectory := value }

/-- The settings of a mapping, those already given being noted. -/
def readEntries (document : Document) :
    List Setting → Config → List (Node × Node) → Except String Config
  | _, config, [] => .ok config
  | given, config, (key, value) :: rest =>
    match document.text? key with
    | none => .error "invalid type of a key, expected a string"
    | some key =>
      match Setting.ofKey? (String.ofList key) with
      | none => readEntries document given config rest
      | some setting =>
        if given.contains setting then .error s!"duplicate field {setting.key}"
        else
          match document.text? value with
          | none => .error s!"{setting.key}: invalid type, expected a string"
          | some text =>
            readEntries document (setting :: given) (setting.put (String.ofList text) config) rest

def ofDocument : Option Document → Except String Config
  | none => .ok {}
  | some document =>
    match document.root with
    | .mapping entries => readEntries document [] {} entries
    | .scalar [] true => .ok {}
    | _ => .error "invalid type, expected a mapping"

/-- The valid configuration that a YAML text gives. -/
def ofYaml (text : Text) : Except ConfigFault Config :=
  if Text.isEmptyOrWhiteSpace text then .ok {}
  else
    match (Document.ofText? text).bind ofDocument with
    | .error detail => .error (.malformed detail)
    | .ok config =>
      match config.validate with
      | .ok () => .ok config
      | .error fault => .error fault

def load (path : Path) : Action ConfigFault Config := do
  let text ← (Action.look (·.readText path)).blaming (.unreadable path)
  match ofYaml text with
  | .ok config => pure config
  | .error fault => throw fault

end ImageStaging.Config
