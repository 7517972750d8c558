import ImageStaging.Host.Arithmetic
import ImageStaging.Host.Pattern
import ImageStaging.Host.Shell.Basic

/-!
# From words to fields

The parts of a word become marks, which remember whether they were quoted and whether they may be
split. Marks are gathered into fields, and a field with signs of a pattern in it is replaced by the
names that the pattern accepts, if there are any.
-/

namespace ImageStaging.Host

open Script (Part Word Modifier Parameter)

inductive Atom
  | mark (c : Char) (quoted splits : Bool)
  /-- There is a field here, even if nothing is in it. -/
  | anchor
  /-- One field ends here and another begins. -/
  | boundary

namespace Atom

def ofText (quoted splits : Bool) (text : Text) : List Atom :=
  text.map fun c => .mark c quoted splits

/-- One field, if it is quoted, or a text that is still to be split. -/
def ofValue (quoted : Bool) (text : Text) : List Atom :=
  if quoted then .anchor :: ofText true false text else ofText false true text

def ofArguments (quoted : Bool) : List Text → List Atom
  | [] => []
  | [last] => ofValue quoted last
  | first :: rest => ofValue quoted first ++ .boundary :: ofArguments quoted rest

/-- The text of atoms that are no fields. -/
def text (atoms : List Atom) : Text :=
  atoms.filterMap fun atom =>
    match atom with
    | .mark c _ _ => some c
    | .boundary => some ' '
    | .anchor => none

def marks (atoms : List Atom) : List Mark :=
  atoms.filterMap fun atom =>
    match atom with
    | .mark c quoted _ => some (c, quoted)
    | .boundary => some (' ', true)
    | .anchor => none

end Atom

/-- The fields gathered so far. After white space that ended a field, one other separator may
follow that ends no field of its own. -/
structure Gathering where
  complete : List (List Mark) := []
  current : Option (List Mark) := none
  absorbs : Bool := false

namespace Gathering

def close (gathering : Gathering) : Gathering :=
  match gathering.current with
  | some field => { complete := gathering.complete ++ [field] }
  | none => { gathering with absorbs := false }

def separate (gathering : Gathering) (blank : Bool) : Gathering :=
  match gathering.current with
  | some _ => { gathering.close with absorbs := blank }
  | none =>
    if blank then gathering
    else if gathering.absorbs then { gathering with absorbs := false }
    else { gathering with complete := gathering.complete ++ [[]] }

def add (separators : Text) (gathering : Gathering) : Atom → Gathering
  | .mark c quoted splits =>
    if splits && !quoted && separators.contains c then
      gathering.separate (c = ' ' || c = '\t' || c = '\n')
    else
      { gathering with
        current := some (gathering.current.getD [] ++ [(c, quoted)])
        absorbs := false }
  | .anchor => { gathering with current := some (gathering.current.getD []), absorbs := false }
  | .boundary => gathering.close

def fields (separators : Text) (atoms : List Atom) : List (List Mark) :=
  (atoms.foldl (add separators) {}).close.complete

end Gathering

/-! ## Names that patterns accept -/

def isPatternSign (mark : Mark) : Bool :=
  !mark.2 && (mark.1 = '*' || mark.1 = '?' || mark.1 = '[')

/-- The paths that begin with one of some paths and go on by a pattern for each name. -/
def globFrom (files : FileSystem) : List (List Mark) → List Text → List Text
  | [], found => found
  | marks :: rest, found =>
    let extend (front : Text) : List Text :=
      if marks.any isPatternSign then
        let directory := if front = [] then ['.'] else front
        match files.list (Path.ofText directory) with
        | .ok names =>
          let texts := (names.mergeSort Name.le).map fun name => Utf8.decodeLossy name.bytes
          let all := [['.'], ['.', '.']] ++ texts
          (all.filter (Pattern.ofMarks marks).acceptsName).map (front ++ ·)
        | .error _ => []
      else
        let path := front ++ marks.map Prod.fst
        if rest.isEmpty then
          match files.examineLink (Path.ofText path) with
          | .ok _ => [path]
          | .error _ => []
        else [path]
    let extended := found.flatMap extend
    globFrom files rest (if rest.isEmpty then extended else extended.map (· ++ ['/']))

/-- The names of a field that is a pattern, or the field itself. -/
def glob (files : FileSystem) (field : List Mark) : List Text :=
  let plain := field.map Prod.fst
  if field.any isPatternSign then
    let pieces := (field.splitOnP fun mark => mark.1 = '/')
    let (start, pieces) :=
      match pieces with
      | [] :: rest => (['/'], rest)
      | _ => ([], pieces)
    match globFrom files pieces [start] with
    | [] => [plain]
    | found => found
  else [plain]

/-! ## Parameters, substitutions and expressions -/

namespace Expansion

/-- What is printed by the commands of a substitution. -/
abbrev Capture := List Script.Command → Run Text

def isSet (emptyToo : Bool) (value : Option Text) : Bool :=
  match value with
  | none => false
  | some text => !(emptyToo && text = [])

def requireSet (parameter : Parameter) (value : Option Text) : Run Text := do
  match value with
  | some text => pure text
  | none =>
    let exempt :=
      match parameter with
      | .all _ | .background => true
      | _ => false
    if (← Run.isOn "nounset") && !exempt then
      Run.fail s!"{String.ofList parameter.label}: parameter not set"
    pure []

/-- The value of a parameter without a modifier. -/
def plainAtoms (parameter : Parameter) (quoted : Bool) : Run (List Atom) := do
  let arguments := (← Run.shell).arguments
  match parameter with
  | .all separate =>
    if separate || !quoted then pure (Atom.ofArguments quoted arguments)
    else
      let separator := (← Run.separators).take 1
      pure (Atom.ofValue true (separator.intercalate arguments))
  | _ =>
    let text ← requireSet parameter (← Run.parameter? parameter)
    pure (Atom.ofValue quoted text)

def arithmetic (text : Text) : Run Text := do
  let values := (← Run.shell).values
  let lookup (name : Text) : Text := ((values.lookup name).bind Variable.value).getD []
  match Arithmetic.run lookup text with
  | .ok (value, assignments) =>
    for (name, value) in assignments.reverse do
      Run.assign name (toString value).toList
    pure (toString value).toList
  | .error (.illegalNumber found) => Run.fail s!"Illegal number: {String.ofList found}"
  | .error fault =>
    Run.fail s!"arithmetic expression: {fault.message}: \"{String.ofList text}\""

mutual

/-- The atoms of parts. What stands outside of quotes is split if `splits`. -/
def atoms (capture : Capture) : Nat → Bool → List Part → Run (List Atom)
  | 0, _, _ => Run.fail "nesting is too deep"
  | _, _, [] => pure []
  | fuel + 1, splits, part :: rest => do
    let first ← partAtoms capture fuel splits part
    pure (first ++ (← atoms capture fuel splits rest))

def partAtoms (capture : Capture) : Nat → Bool → Part → Run (List Atom)
  | 0, _, _ => Run.fail "nesting is too deep"
  | fuel + 1, splits, part => do
    match part with
    | .literal text quoted =>
      pure <|
        if quoted then .anchor :: Atom.ofText true false text
        else Atom.ofText false splits text
    | .substitution commands quoted =>
      pure (Atom.ofValue quoted (← capture commands))
    | .arithmetic expression quoted =>
      let text := Atom.text (← atoms capture fuel false expression)
      pure (Atom.ofValue quoted (← arithmetic text))
    | .parameter parameter none _ quoted => plainAtoms parameter quoted
    | .parameter parameter (some modifier) word quoted =>
      modifiedAtoms capture fuel parameter modifier word quoted

def modifiedAtoms (capture : Capture) :
    Nat → Parameter → Modifier → List Part → Bool → Run (List Atom)
  | 0, _, _, _, _ => Run.fail "nesting is too deep"
  | fuel + 1, parameter, modifier, word, quoted => do
    let value ← Run.parameter? parameter
    let wordAtoms : Run (List Atom) := do
      let inner ← atoms capture fuel true word
      pure (if quoted then .anchor :: inner else inner)
    match modifier with
    | .invalid => Run.fail "Bad substitution"
    | .length =>
      match parameter with
      | .all _ =>
        let arguments := (← Run.shell).arguments
        pure (Atom.ofValue quoted (toString ([' '].intercalate arguments).length).toList)
      | _ =>
        let text ← requireSet parameter value
        pure (Atom.ofValue quoted (toString text.length).toList)
    | .default emptyToo =>
      if isSet emptyToo value then plainAtoms parameter quoted else wordAtoms
    | .alternative emptyToo =>
      if isSet emptyToo value then wordAtoms else pure (if quoted then [.anchor] else [])
    | .assign emptyToo =>
      if isSet emptyToo value then plainAtoms parameter quoted
      else
        let text := Atom.text (← atoms capture fuel false word)
        match parameter with
        | .named name =>
          Run.assign name text
          pure (Atom.ofValue quoted text)
        | _ => Run.fail s!"{String.ofList parameter.label}: bad variable name"
    | .require emptyToo =>
      if isSet emptyToo value then plainAtoms parameter quoted
      else
        let text := Atom.text (← atoms capture fuel false word)
        let message :=
          if !word.isEmpty then String.ofList text
          else if emptyToo then "parameter not set or null"
          else "parameter not set"
        Run.fail s!"{String.ofList parameter.label}: {message}"
    | .cutStart longest =>
      let pattern := Pattern.ofMarks (Atom.marks (← atoms capture fuel false word))
      let text ← requireSet parameter value
      pure (Atom.ofValue quoted (pattern.cutStart longest text))
    | .cutEnd longest =>
      let pattern := Pattern.ofMarks (Atom.marks (← atoms capture fuel false word))
      let text ← requireSet parameter value
      pure (Atom.ofValue quoted (pattern.cutEnd longest text))

end

/-- The home directory in the place of a tilde at the start of a word. -/
def withHome (word : Word) : Run Word := do
  match word with
  | .literal ('~' :: rest) false :: more =>
    if (rest = [] && more.isEmpty) || rest.head? = some '/' then
      match ← Run.value? ['H', 'O', 'M', 'E'] with
      | some home => pure (.literal home true :: .literal rest false :: more)
      | none => pure word
    else pure word
  | _ => pure word

/-- A word as one text. -/
def text (capture : Capture) (fuel : Nat) (word : Word) : Run Text := do
  pure (Atom.text (← atoms capture fuel false (← withHome word)))

/-- A word as a pattern. -/
def pattern (capture : Capture) (fuel : Nat) (word : Word) : Run Pattern := do
  pure (Pattern.ofMarks (Atom.marks (← atoms capture fuel false (← withHome word))))

/-- The fields of some words. -/
def fields (capture : Capture) (fuel : Nat) (words : List Word) : Run (List Text) := do
  let mut found : List Text := []
  for word in words do
    let atoms ← atoms capture fuel false (← withHome word)
    let gathered := Gathering.fields (← Run.separators) atoms
    if ← Run.isOn "noglob" then
      found := found ++ gathered.map fun field => field.map Prod.fst
    else
      let files ← Run.files
      found := found ++ gathered.flatMap (glob files)
  pure found

end Expansion

end ImageStaging.Host
