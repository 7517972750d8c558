/-!
# Log events

An event says what a part of a run has just done. Its line shows the level in five columns, the
message and the fields in order; the part it comes from is its topic, which only filters see.
-/

namespace ImageStaging.Log

inductive Level
  | error
  | warn
  | info
  | debug
  | trace
  deriving DecidableEq, Repr

namespace Level

/-- The rarer events of a level are, the lower its rank. -/
def rank : Level → Nat
  | .error => 1
  | .warn => 2
  | .info => 3
  | .debug => 4
  | .trace => 5

def label : Level → String
  | .error => "ERROR"
  | .warn => " WARN"
  | .info => " INFO"
  | .debug => "DEBUG"
  | .trace => "TRACE"

end Level

inductive Topic
  | building
  | staging
  | copying
  | resolution
  | variables
  | delivery
  deriving DecidableEq, Repr

/-- The name that filters know a topic by. -/
def Topic.name : Topic → String
  | .building => "docker_builder::pipeline"
  | .staging => "docker_builder::stage"
  | .copying => "docker_builder::fs::copy"
  | .resolution => "docker_builder::template::resolve"
  | .variables => "docker_builder::variables"
  | .delivery => "docker_builder::invoker"

structure Event where
  topic : Topic
  level : Level
  message : String
  fields : List (String × String)
  deriving DecidableEq, Repr

namespace Event

def line (event : Event) : String :=
  String.join
    (event.level.label :: " " :: event.message ::
      event.fields.map fun (name, value) => s!" {name}={value}")

/-- The names of all fields, of which the message is one. -/
def fieldNames (event : Event) : List String :=
  "message" :: event.fields.map Prod.fst

end Event

end ImageStaging.Log
