import ImageStaging.Host.Pattern
import ImageStaging.Host.Utility.Basic

/-!
# Programs that tell what is in directories
-/

namespace ImageStaging.Host.Utility

/-- The names of a directory that a listing shows, in their order. -/
def shownNames (options : Options) (names : List Name) : List Bytes :=
  let dots : List Bytes := if options.has 'a' then [[Path.dot], [Path.dot, Path.dot]] else []
  let all := options.has 'a' || options.has 'A'
  let shown := (names.map Name.bytes).filter fun name => all || name.head? ≠ some Path.dot
  let sorted := (dots ++ shown).mergeSort fun first second => decide (first ≤ second)
  if options.has 'r' then sorted.reverse else sorted

/-- A name with the sign of its kind, if a listing shows such signs. -/
def labelled (options : Options) (files : FileSystem) (path : Path) (name : Bytes) : Bytes :=
  let sign : Bytes :=
    match files.examineLink path with
    | .ok .directory => if options.has 'F' || options.has 'p' then [0x2F] else []
    | .ok (.link _) => if options.has 'F' then [0x40] else []
    | .ok (.file _ true) => if options.has 'F' then [0x2A] else []
    | _ => []
  name ++ sign

def listDirectory (process : Process) (options : Options) (path : Path) : Task Nat := do
  let files ← Task.files
  match files.list path with
  | .ok names =>
    for name in shownNames options names do
      process.print (labelled options files (path.join ⟨name⟩) name ++ [0x0A])
    pure 0
  | .error fault =>
    let _ ← process.failWith s!"cannot open directory {quoted (path.display).toList}" fault
    pure 2

/-- A directory stands at a path itself, and not where a link leads. -/
def isPlainDirectory (files : FileSystem) (path : Path) : Bool :=
  match files.examineLink path with
  | .ok .directory => true
  | _ => false

/-- A directory and all directories below it, those first whose names come first. -/
def directoriesBelow (files : FileSystem) : Nat → Path → List Path
  | 0, _ => []
  | depth + 1, path =>
    match files.list path with
    | .ok names =>
      path :: ((names.mergeSort Name.le).filter fun name =>
        isPlainDirectory files (path.join name.toPath)).flatMap fun name =>
          directoriesBelow files depth (path.join name.toPath)
    | .error _ => [path]

def listOptions : OptionTable where
  letters := "abcdfghiklmnopqrstuvxABCDFGHLNQRSUXZ1".toList
  valued := ['w', 'I', 'T']
  long := [("all", 'a'), ("almost-all", 'A'), ("directory", 'd'), ("recursive", 'R'),
    ("reverse", 'r'), ("classify", 'F')]

def list : Utility :=
  .withOptions listOptions 2 fun process options => do
    let operands := if options.operands.isEmpty then [['.']] else options.operands
    let operands := operands.mergeSort fun first second =>
      decide (Utf8.encode first ≤ Utf8.encode second)
    let files ← Task.files
    let mut status := 0
    let mut plain : List Text := []
    let mut directories : List Text := []
    for operand in operands do
      match files.examine (Path.ofText operand) with
      | .ok .directory =>
        if options.has 'd' then plain := plain ++ [operand]
        else directories := directories ++ [operand]
      | .ok _ => plain := plain ++ [operand]
      | .error fault =>
        match files.examineLink (Path.ofText operand) with
        | .ok _ => plain := plain ++ [operand]
        | .error _ =>
          let _ ← process.failWith s!"cannot access {quoted operand}" fault
          status := 2
    for operand in plain do
      process.print (labelled options files (Path.ofText operand) (Utf8.encode operand) ++ [0x0A])
    let deep := options.has 'R'
    let paths := directories.flatMap fun operand =>
      let path := Path.ofText operand
      if deep then directoriesBelow files FileSystem.pathLimit path else [path]
    let headed := deep || 1 < operands.length
    for (index, path) in paths.mapIdx fun index path => (index, path) do
      if headed then
        let gap : Bytes := if index = 0 && plain.isEmpty then [] else [0x0A]
        process.print (gap ++ path.bytes ++ [0x3A, 0x0A])
      status := max status (← listDirectory process options path)
    pure status

/-! ## Finding -/

/-- What `find` asks of an entry. -/
structure FindTest where
  kind : Option Char := none
  name : Option Pattern := none
  least : Nat := 0
  most : Option Nat := none
  empty : Bool := false

/-- Reads the words of a test. `isPath` tells whether something stands at a path. -/
def FindTest.read (isPath : Text → Bool) (last : Option Text) (test : FindTest) :
    List Text → Except String FindTest
  | [] => .ok test
  | option :: rest => do
    let name := String.ofList option
    match name with
    | "-print" => test.read isPath (some option) rest
    | "-empty" => FindTest.read isPath (some option) { test with empty := true } rest
    | "-type" | "-name" | "-mindepth" | "-maxdepth" =>
      match rest with
      | [] => throw s!"missing argument to \x60{name}'"
      | value :: rest =>
        let depth : Except String Nat :=
          match (String.ofList value).toNat? with
          | some depth => .ok depth
          | none =>
            .error <| s!"Expected a positive decimal integer argument to {name}, " ++
              s!"but got {quoted value}"
        let next ←
          match name with
          | "-type" =>
            if ["f", "d", "l", "b", "c", "p", "s"].contains (String.ofList value) then
              pure { test with kind := value.head? }
            else throw s!"Unknown argument to -type: {String.ofList value}"
          | "-name" => pure { test with name := some (.ofText value) }
          | "-mindepth" => do pure { test with least := ← depth }
          | _ => do pure { test with most := some (← depth) }
        next.read isPath (some option) rest
    | _ =>
      if option.head? = some '-' then throw s!"unknown predicate \x60{name}'"
      else
        let hint :=
          match last with
          | some before =>
            if isPath option then
              s!"\nfind: possible unquoted pattern after predicate \x60{String.ofList before}'?"
            else ""
          | none => ""
        throw s!"paths must precede expression: \x60{name}'{hint}"

def FindTest.accepts (test : FindTest) (files : FileSystem) (path : Path) (entry : Entry)
    (depth : Nat) : Bool :=
  let kindOf : Entry → Char
    | .directory => 'd'
    | .file _ _ => 'f'
    | .link _ => 'l'
    | .fullDevice => 'c'
  let isEmpty : Bool :=
    match entry with
    | .directory => (files.list path).toOption.any List.isEmpty
    | .file content _ => content.isEmpty
    | _ => false
  let name := ((path.pieces.filter (· ≠ [])).getLast?).getD [0x2F]
  test.kind.all (· = kindOf entry) &&
    test.name.all (·.accepts (Utf8.decodeLossy name)) &&
    test.least ≤ depth && (!test.empty || isEmpty)

/-- The paths of a tree that a test accepts, a directory before what is in it. -/
def findBelow (files : FileSystem) (test : FindTest) : Nat → Nat → Path → List Path
  | 0, _, _ => []
  | fuel + 1, depth, path =>
    match files.examineLink path with
    | .error _ => []
    | .ok entry =>
      let here := if test.accepts files path entry depth then [path] else []
      let goesOn := entry = .directory && test.most.all (depth < ·)
      let names := if goesOn then (files.list path).toOption.getD [] else []
      here ++ (names.mergeSort Name.le).flatMap fun name =>
        findBelow files test fuel (depth + 1) (path.join name.toPath)

def find : Utility := fun process => do
  let files ← Task.files
  let starts := process.arguments.takeWhile fun word => word.head? ≠ some '-'
  let isPath (word : Text) : Bool := (files.examine (Path.ofText word)).toOption.isSome
  match FindTest.read isPath none {} (process.arguments.drop starts.length) with
  | .error message =>
    process.complain s!"{String.ofList process.name}: {message}"
    pure 1
  | .ok test =>
    Process.overEach (fun start => do
      let path := Path.ofText start
      match files.examineLink path with
      | .ok _ =>
        for found in findBelow files test FileSystem.pathLimit 0 path do
          process.print (found.bytes ++ [0x0A])
        pure 0
      | .error fault => process.failWith (quoted start) fault)
      (if starts.isEmpty then [['.']] else starts)

end ImageStaging.Host.Utility
