import ImageStaging.Log.Event
import ImageStaging.Log.Pattern
import ImageStaging.Text.Utf8

/-!
# Which events are shown

A filter is a list of directives between commas. A directive is a level, or a topic, a span and a
field with or without a level, as in `topic[span{field}]=level`. Of the directives that cover an
event the most specific one decides about it. Text that is no filter is as good as none, and then
the arguments decide.
-/

namespace ImageStaging.Log

/-- Shows the events it covers up to a level, or none of them. -/
structure Directive where
  /-- What the topic of an event has to begin with. -/
  topic : Option Text := none
  span : Option Text := none
  /-- The field that an event has to have, and the value it has to have there. -/
  field : Option (Text × Option Text) := none
  level : Option Level := some .trace
  deriving DecidableEq

/-- The level that a word names, `some none` being no level at all. -/
def levelOfWord? (word : Text) : Option (Option Level) :=
  let digits := if word.head? = some '+' then word.drop 1 else word
  if digits ≠ [] && digits.all Char.isDigit then
    match String.ofList (digits.dropWhile (· = '0')) with
    | "" => some none
    | "1" => some (some .error)
    | "2" => some (some .warn)
    | "3" => some (some .info)
    | "4" => some (some .debug)
    | "5" => some (some .trace)
    | _ => none
  else
    match (String.ofList word).toLower with
    | "off" => some none
    | "error" => some (some .error)
    | "warn" => some (some .warn)
    | "info" => some (some .info)
    | "debug" => some (some .debug)
    | "trace" => some (some .trace)
    | _ => none

namespace Directive

/-- The part of a text between two offsets, which count bytes. -/
def between (start stop : Nat) (text : Text) : Text :=
  (text.foldl (fun (offset, part) c =>
    (offset + c.utf8Size, if start ≤ offset && offset < stop then c :: part else part))
    (0, [])).2.reverse

def isTopicStart (c : Char) : Bool :=
  c = '-' || c = ':' || c = '_' || Text.isAlphanumeric c

/-- Where the reading of a directive stands, and at which offset the part being read began. -/
inductive Reading
  | start
  | topicOrLevel
  | span (start : Nat)
  | field (start : Nat)
  | afterField
  | afterSpan
  | level (start : Nat)

/-- A field, whose value comes after an equals sign. -/
def fieldOf? (text : Text) : Option (Text × Option Text) :=
  match text, Text.splitFirst '=' text with
  | [], _ => none
  | _, none => some (text, none)
  | _, some (name, rest) =>
    let value := rest.takeWhile (· ≠ '=')
    if Pattern.isWellFormed value then some (name, some value) else none

/-- Reads one character of a directive. The parts that it ends are cut out of `whole`. -/
def step (whole : Text) (offset : Nat) (c : Char) (directive : Directive) :
    Reading → Option (Directive × Reading)
  | .start =>
    if c = '[' then some (directive, .span (offset + 1))
    else if isTopicStart c then some (directive, .topicOrLevel)
    else none
  | .topicOrLevel =>
    if c = '=' then
      some ({ directive with topic := some (between 0 offset whole) }, .level (offset + 1))
    else if c = '[' then
      some ({ directive with topic := some (between 0 offset whole) }, .span (offset + 1))
    else some (directive, .topicOrLevel)
  | .span start =>
    let span := between start offset whole
    if c = ']' then some ({ directive with span := some span }, .afterSpan)
    else if c = '\x7B' then
      some ({ directive with span := if span = [] then none else some span }, .field (offset + 1))
    else some (directive, .span start)
  | .field start =>
    if c = '\x7D' then
      (fieldOf? (between start offset whole)).map fun field =>
        ({ directive with field := some field }, .afterField)
    else some (directive, .field start)
  | .afterField => if c = ']' then some (directive, .afterSpan) else none
  | .afterSpan => if c = '=' then some (directive, .level (offset + 1)) else none
  | .level start => some (directive, .level start)

/-- The directive at the end of the reading, if it may end here. -/
def finish (whole : Text) (directive : Directive) : Reading → Option Directive
  | .topicOrLevel =>
    match levelOfWord? whole with
    | some level => some { directive with level }
    | none => some { directive with topic := some whole }
  | .level start =>
    let word := between start (Utf8.encode whole).length whole
    if word = [] then some directive
    else (levelOfWord? word).map fun level => { directive with level }
  | .afterSpan => some directive
  | _ => none

def readFrom (whole : Text) : Nat → Directive → Reading → Text → Option Directive
  | _, directive, reading, [] => finish whole directive reading
  | offset, directive, reading, c :: rest =>
    match step whole offset c directive reading with
    | some (next, reading) => readFrom whole (offset + c.utf8Size) next reading rest
    | none => none

/-- The directive of a text. White space at its ends is not read, but the offsets of the parts are
counted without it and used with it, so white space before a topic spoils what follows. -/
def ofText? (text : Text) : Option Directive :=
  readFrom text 0 {} .start
    (Text.dropEnd Text.isWhiteSpace (text.dropWhile Text.isWhiteSpace))

/-- No event is inside a span, and the values of its fields are not looked at. -/
def covers (directive : Directive) (event : Event) : Bool :=
  directive.span.isNone &&
    directive.topic.all (fun topic => topic.isPrefixOf event.topic.name.toList) &&
    directive.field.all fun (name, value) =>
      value.isNone && event.fieldNames.contains (String.ofList name)

/-- A longer topic is more specific, then a field is, and of two fields the one that comes later in
the alphabet. -/
def isBelow (first second : Directive) : Bool :=
  let length := fun (directive : Directive) => (directive.topic.map (·.length + 1)).getD 0
  let field := fun (directive : Directive) => (directive.field.map fun (name, _) => name).getD []
  length first < length second || (length first = length second && field first < field second)

end Directive

abbrev Filter := List Directive

namespace Filter

/-- The filter of a text. With no directive at all, errors are shown. -/
def ofText? (text : String) : Option Filter :=
  match (text.toList.splitOn ',').filter (· ≠ []) with
  | [] => some [{ level := some .error }]
  | pieces => pieces.mapM Directive.ofText?

/-- The directive that decides about an event: of two that are equally specific it is the later. -/
def deciding? (filter : Filter) (event : Event) : Option Directive :=
  (filter.filter (·.covers event)).foldl (fun best candidate =>
    match best with
    | some found => if candidate.isBelow found then best else some candidate
    | none => some candidate) none

def shows (filter : Filter) (event : Event) : Bool :=
  match (filter.deciding? event).bind Directive.level with
  | some level => decide (event.level.rank ≤ level.rank)
  | none => false

/-- The filter of a setting of the environment, if it is there and is one. -/
def ofSetting (setting : Option String) (verbose : Bool) : Filter :=
  (setting.bind ofText?).getD [{ level := some (if verbose then .debug else .warn) }]

/-- The lines of the events that are shown. -/
def render (filter : Filter) (events : List Event) : String :=
  String.join ((events.filter filter.shows).map fun event => event.line ++ "\n")

end Filter

end ImageStaging.Log
