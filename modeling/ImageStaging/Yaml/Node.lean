import ImageStaging.Association
import ImageStaging.Yaml.Token

/-!
# YAML documents

A document is a node: a scalar, a sequence, a mapping or an alias. Anchors are numbered by how many
names were given before them, so a name that is given again shares the number of the name that is
given next. An alias has the number that its name has at that place, and stands for the last node
with it, which may come later than the alias or hold it. The functions below follow the grammar of
the tokens; `fuel` bounds their nesting, and each node takes a token or is empty, so a multiple of
the number of tokens is always enough.
-/

namespace ImageStaging.Yaml

inductive Node
  | scalar (text : Text) (plain : Bool)
  | sequence (items : List Node)
  | mapping (entries : List (Node × Node))
  | alias (number : Nat)

def Node.empty : Node :=
  .scalar [] true

structure Document where
  root : Node
  /-- What the aliases of a number stand for: the text of a scalar, or a collection. -/
  targets : List (Nat × Option Text)

/-- The text of a scalar, or of the one that an alias stands for. -/
def Document.text? (document : Document) : Node → Option Text
  | .scalar text _ => some text
  | .alias number => (document.targets.lookup number).join
  | _ => none

structure Reader where
  tokens : List Token
  /-- The tag handles that are declared. -/
  handles : List Text := []
  /-- The number that each anchor name has now. -/
  numbers : List (Text × Nat) := []
  /-- The last node of each number so far. -/
  targets : List (Nat × Option Text) := []

abbrev Parse := StateT Reader Result

namespace Parse

def peek : Parse Token := do
  pure ((← get).tokens.headD .streamEnd)

def skip : Parse Unit :=
  modify fun reader => { reader with tokens := reader.tokens.drop 1 }

def nextIs (candidates : List Token) : Parse Bool := do
  pure (candidates.contains (← peek))

/-- Numbers the anchor of a node, if it has one. -/
def anchor (name : Option Text) (target : Option Text) : Parse Unit := do
  if let some found := name then
    modify fun reader =>
      let number := reader.numbers.length
      { reader with
        numbers := Association.put reader.numbers found number
        targets := Association.put reader.targets number target }

def aliased (name : Text) : Parse Node := do
  match (← get).numbers.lookup name with
  | some number => pure (.alias number)
  | none => throw "unknown anchor"

/-- The anchor and the tag before a node, in either order. -/
def readProperties : Parse (Option Text × Option Text) := do
  match ← peek with
  | .anchor name =>
    skip
    match ← peek with
    | .tag handle =>
      skip
      pure (some name, some handle)
    | _ => pure (some name, none)
  | .tag handle =>
    skip
    match ← peek with
    | .anchor name =>
      skip
      pure (some name, some handle)
    | _ => pure (none, some handle)
  | _ => pure (none, none)

/-- What ends a key or a value of a block mapping that is empty. -/
def blockEnds : List Token := [.key, .value, .blockEnd]

mutual

/-- A node. Block collections are nodes only on the block level, and a sequence that is not
indented only inside a block mapping. -/
def node : Nat → Bool → Bool → Parse Node
  | 0, _, _ => throw "nesting is too deep"
  | fuel + 1, block, indentless => do
    if let .alias name ← peek then
      skip
      return ← aliased name
    let (name, handle) ← readProperties
    if let some found := handle then
      unless found = [] || (← get).handles.contains found do
        throw "found undefined tag handle"
    match ← peek with
    | .scalar text plain =>
      skip
      anchor name (some text)
      pure (.scalar text plain)
    | next =>
      if indentless && next = .blockEntry then
        anchor name none
        pure (.sequence (← indentlessItems fuel))
      else if next = .flowSequenceStart then
        skip
        anchor name none
        pure (.sequence (← flowItems fuel true))
      else if next = .flowMappingStart then
        skip
        anchor name none
        pure (.mapping (← flowEntries fuel true))
      else if block && next = .blockSequenceStart then
        skip
        anchor name none
        pure (.sequence (← blockItems fuel))
      else if block && next = .blockMappingStart then
        skip
        anchor name none
        pure (.mapping (← blockEntries fuel))
      else if name.isSome || handle.isSome then
        anchor name (some [])
        pure .empty
      else throw "did not find expected node content"

/-- A node, unless one of the given tokens comes first. -/
def nodeUnless : Nat → List Token → Bool → Bool → Parse Node
  | 0, _, _, _ => throw "nesting is too deep"
  | fuel + 1, ends, block, indentless => do
    if ← nextIs ends then pure .empty else node fuel block indentless

def blockItems : Nat → Parse (List Node)
  | 0 => throw "nesting is too deep"
  | fuel + 1 => do
    match ← peek with
    | .blockEntry =>
      skip
      let item ← nodeUnless fuel [.blockEntry, .blockEnd] true false
      pure (item :: (← blockItems fuel))
    | .blockEnd =>
      skip
      pure []
    | _ => throw "did not find expected '-' indicator"

def indentlessItems : Nat → Parse (List Node)
  | 0 => throw "nesting is too deep"
  | fuel + 1 => do
    if (← peek) = .blockEntry then
      skip
      let item ← nodeUnless fuel (.blockEntry :: blockEnds) true false
      pure (item :: (← indentlessItems fuel))
    else pure []

def blockEntries : Nat → Parse (List (Node × Node))
  | 0 => throw "nesting is too deep"
  | fuel + 1 => do
    match ← peek with
    | .key =>
      skip
      let key ← nodeUnless fuel blockEnds true true
      let value ← valueUnless fuel blockEnds true true
      pure ((key, value) :: (← blockEntries fuel))
    | .blockEnd =>
      skip
      pure []
    | _ => throw "did not find expected key"

/-- The value after a key, which is empty if there is none. -/
def valueUnless : Nat → List Token → Bool → Bool → Parse Node
  | 0, _, _, _ => throw "nesting is too deep"
  | fuel + 1, ends, block, indentless => do
    if (← peek) = .value then
      skip
      nodeUnless fuel ends block indentless
    else pure .empty

def flowItems : Nat → Bool → Parse (List Node)
  | 0, _ => throw "nesting is too deep"
  | fuel + 1, first => do
    if (← peek) ≠ .flowSequenceEnd && !first then
      unless (← peek) = .flowEntry do throw "did not find expected ',' or ']'"
      skip
    match ← peek with
    | .flowSequenceEnd =>
      skip
      pure []
    | .key =>
      skip
      let ends := [.flowEntry, .flowSequenceEnd]
      let isEmpty ← nextIs (.value :: ends)
      let key ← nodeUnless fuel (.value :: ends) false false
      if isEmpty then skip
      let value ← valueUnless fuel ends false false
      pure (.mapping [(key, value)] :: (← flowItems fuel false))
    | _ =>
      let item ← node fuel false false
      pure (item :: (← flowItems fuel false))

def flowEntries : Nat → Bool → Parse (List (Node × Node))
  | 0, _ => throw "nesting is too deep"
  | fuel + 1, first => do
    if (← peek) ≠ .flowMappingEnd && !first then
      unless (← peek) = .flowEntry do throw "did not find expected ',' or '\x7D'"
      skip
    match ← peek with
    | .flowMappingEnd =>
      skip
      pure []
    | .key =>
      skip
      let ends := [.flowEntry, .flowMappingEnd]
      let key ← nodeUnless fuel (.value :: ends) false false
      let value ← valueUnless fuel ends false false
      pure ((key, value) :: (← flowEntries fuel false))
    | _ =>
      let key ← node fuel false false
      pure ((key, .empty) :: (← flowEntries fuel false))

end

/-- The directives before a document. -/
def readDirectives : Nat → Bool → Parse Unit
  | 0, _ => pure ()
  | fuel + 1, versioned => do
    match ← peek with
    | .versionDirective major minor =>
      if versioned then throw "found duplicate %YAML directive"
      unless major = 1 && (minor = 1 || minor = 2) do
        throw "found incompatible YAML document"
      skip
      readDirectives fuel true
    | .tagDirective handle =>
      if (← get).handles.contains handle then throw "found duplicate %TAG directive"
      modify fun reader => { reader with handles := handle :: reader.handles }
      skip
      readDirectives fuel versioned
    | _ => pure ()

def defaultHandles : List Text :=
  [['!'], ['!', '!']]

/-- The only document, if there is a document at all. -/
def document : Parse (Option Document) := do
  let count := (← get).tokens.length
  if (← peek) = .streamEnd then
    pure none
  else
    readDirectives count false
    let explicit := (← peek) = .documentStart
    if (← get).tokens.length < count && !explicit then
      throw "did not find expected <document start>"
    modify fun reader => { reader with handles := reader.handles ++ defaultHandles }
    let root ←
      if explicit then
        skip
        let ends (token : Token) : Bool :=
          match token with
          | .versionDirective _ _ | .tagDirective _ | .documentStart | .documentEnd
          | .streamEnd => true
          | _ => false
        if ends (← peek) then pure .empty else node (8 * count) true false
      else node (8 * count) true false
    modify fun reader => { reader with tokens := reader.tokens.dropWhile (· = .documentEnd) }
    if (← peek) = .streamEnd then pure (some ⟨root, (← get).targets⟩)
    else throw "more than one document is not supported"

end Parse

/-- The document of a text that holds at most one. -/
def Document.ofText? (text : Text) : Result (Option Document) := do
  let tokens ← tokens text
  Parse.document.run' { tokens := tokens }

end ImageStaging.Yaml
