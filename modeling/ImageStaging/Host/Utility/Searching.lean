import ImageStaging.Host.Pattern
import ImageStaging.Host.Utility.Filtering

/-!
# Searching lines

An expression stands for the texts that it accepts. It is tried at every place of a line, and the
texts that may be left behind it are all found at once.
-/

namespace ImageStaging.Host.Utility

inductive Expression
  | nothing
  | one (glyph : Glyph)
  | lineStart
  | lineEnd
  | sequence (first second : Expression)
  | choice (first second : Expression)
  /-- At least so many times, and at most once if it is not `unbounded`. -/
  | repeated (least : Nat) (unbounded : Bool) (inner : Expression)

namespace Expression

/-- What repetitions of an expression may leave of a text; each takes at least one character. -/
def repetitions (once : Text → List Text) : Nat → Text → List Text
  | 0, text => [text]
  | fuel + 1, text =>
    let shorter := (once text).filter fun rest => rest.length < text.length
    text :: shorter.flatMap (repetitions once fuel)

/-- What an expression may leave of a text. `whole` is the length of the line. -/
def rests (whole : Nat) : Expression → Text → List Text
  | .nothing, text => [text]
  | .one glyph, c :: rest => if glyph.accepts c then [rest] else []
  | .one _, [] => []
  | .lineStart, text => if text.length = whole then [text] else []
  | .lineEnd, text => if text = [] then [text] else []
  | .sequence first second, text => (rests whole first text).flatMap (rests whole second)
  | .choice first second, text => rests whole first text ++ rests whole second text
  | .repeated least unbounded inner, text =>
    let most := if unbounded then text.length else 1 - least
    let start := if least = 0 then [text] else rests whole inner text
    start.flatMap (repetitions (rests whole inner) most)

/-- The longest match at the start of a text. -/
def matchLength? (expression : Expression) (whole : Nat) (text : Text) : Option Nat :=
  ((rests whole expression text).map fun rest => text.length - rest.length).max?

/-- Some place of a line has a match. -/
def occursIn (expression : Expression) (whole : Nat) : Text → Bool
  | [] => (expression.matchLength? whole []).isSome
  | c :: rest =>
    (expression.matchLength? whole (c :: rest)).isSome || occursIn expression whole rest

/-- All matches in a line that are not empty, from left to right. -/
def matchesIn (expression : Expression) (whole : Nat) : Nat → Text → List Text
  | 0, _ => []
  | _, [] => []
  | fuel + 1, c :: rest =>
    match expression.matchLength? whole (c :: rest) with
    | some (length + 1) =>
      (c :: rest).take (length + 1) ::
        matchesIn expression whole fuel ((c :: rest).drop (length + 1))
    | _ => matchesIn expression whole fuel rest

/-- The sign of an operator at the start of a text, and what follows it. In extended expressions
operators stand alone, and otherwise after a backslash. -/
def operator? (extended : Bool) (signs : List Char) (text : Text) : Option (Char × Text) :=
  match text with
  | '\\' :: c :: rest => if !extended && signs.contains c then some (c, rest) else none
  | c :: rest => if extended && signs.contains c then some (c, rest) else none
  | [] => none

mutual

def readChoice (extended : Bool) : Nat → Text → Expression × Text
  | 0, text => (.nothing, text)
  | fuel + 1, text =>
    let (first, rest) := readSequence extended fuel true .nothing text
    match operator? extended ['|'] rest with
    | some (_, more) =>
      let (second, rest) := readChoice extended fuel more
      (.choice first second, rest)
    | none => (first, rest)

def readSequence (extended : Bool) : Nat → Bool → Expression → Text → Expression × Text
  | 0, _, read, text => (read, text)
  | fuel + 1, first, read, text =>
    if text = [] || (operator? extended ['|', ')'] text).isSome then (read, text)
    else
      let (item, rest) := readItem extended fuel first text
      let (item, rest) := readRepetition extended fuel item rest
      readSequence extended fuel false (.sequence read item) rest

def readItem (extended : Bool) : Nat → Bool → Text → Expression × Text
  | 0, _, text => (.nothing, text)
  | fuel + 1, first, text =>
    match operator? extended ['('] text with
    | some (_, more) =>
      let (inner, rest) := readChoice extended fuel more
      match operator? extended [')'] rest with
      | some (_, rest) => (inner, rest)
      | none => (inner, rest)
    | none =>
      match text with
      | '^' :: rest => if first || extended then (.lineStart, rest) else (.one (.one '^'), rest)
      | '$' :: rest =>
        if extended || rest = [] || (operator? extended ['|', ')'] rest).isSome then
          (.lineEnd, rest)
        else (.one (.one '$'), rest)
      | '.' :: rest => (.one .any, rest)
      | '[' :: rest =>
        match Pattern.readSet? (rest.map fun c => (c, false)) with
        | some (glyph, more) => (.one glyph, more.map Prod.fst)
        | none => (.one (.one '['), rest)
      | '\\' :: c :: rest => (.one (.one c), rest)
      | c :: rest => (.one (.one c), rest)
      | [] => (.nothing, [])

def readRepetition (extended : Bool) : Nat → Expression → Text → Expression × Text
  | 0, item, text => (item, text)
  | fuel + 1, item, text =>
    match text, operator? extended ['+', '?'] text with
    | '*' :: rest, _ => readRepetition extended fuel (.repeated 0 true item) rest
    | _, some ('+', rest) => readRepetition extended fuel (.repeated 1 true item) rest
    | _, some (_, rest) => readRepetition extended fuel (.repeated 0 false item) rest
    | _, none => (item, text)

end

def ofText (extended : Bool) (text : Text) : Expression :=
  (readChoice extended (10 * text.length + 20) text).1

/-- The expression that accepts one text. -/
def exactly (text : Text) : Expression :=
  text.foldr (fun c more => .sequence (.one (.one c)) more) .nothing

end Expression

structure Search where
  expression : Expression
  /-- Letters of both cases are the same. -/
  anyCase : Bool
  /-- The whole line has to match. -/
  wholeLine : Bool

def Search.folded (search : Search) (text : Text) : Text :=
  if search.anyCase then text.map Char.toLower else text

def Search.accepts (search : Search) (line : Text) : Bool :=
  let line := search.folded line
  if search.wholeLine then (search.expression.rests line.length line).contains []
  else search.expression.occursIn line.length line

/-- The files of a directory and of all directories below it. -/
def filesBelow (files : FileSystem) : Nat → Path → List Path
  | 0, _ => []
  | depth + 1, path =>
    match files.examineLink path with
    | .ok .directory =>
      let names := (files.list path).toOption.getD []
      (names.mergeSort Name.le).flatMap fun name =>
        filesBelow files depth (path.join name.toPath)
    | .ok (.file _ _) => [path]
    | _ => []

def searchOptions : OptionTable where
  letters := "abcEFGHhiIlLnoqRrsUvwxyz".toList
  valued := ['A', 'B', 'C', 'd', 'D', 'e', 'f', 'm']
  long := [("count", 'c'), ("extended-regexp", 'E'), ("fixed-strings", 'F'), ("ignore-case", 'i'),
    ("invert-match", 'v'), ("line-number", 'n'), ("quiet", 'q'), ("recursive", 'r')]

def searchUsage : String :=
  "Usage: grep [OPTION]... PATTERNS [FILE]...\nTry 'grep --help' for more information."

def search : Utility := fun process => do
  match Options.read searchOptions process.arguments with
  | .error fault =>
    process.complain s!"{String.ofList process.name}: {fault.message}\n{searchUsage}"
    pure 2
  | .ok options =>
    match options.value? 'e', options.operands with
    | some text, operands => run process options text operands
    | none, text :: operands => run process options text operands
    | none, [] =>
      process.complain searchUsage
      pure 2
where
  run (process : Process) (options : Options) (text : Text) (operands : List Text) : Task Nat := do
    let anyCase := options.has 'i'
    let text := if anyCase then text.map Char.toLower else text
    let expressions := (Text.fields '\n' text).map fun line =>
      if options.has 'F' then Expression.exactly line else .ofText (options.has 'E') line
    let expression := expressions.drop 1 |>.foldl .choice (expressions.headD .nothing)
    let search : Search := ⟨expression, anyCase, options.has 'x'⟩
    let deep := options.has 'r' || options.has 'R'
    let files ← Task.files
    let here := deep && operands.isEmpty
    let operands :=
      if !deep then operands
      else
        let starts := if operands.isEmpty then [['.']] else operands
        starts.flatMap fun start =>
          let path := Path.ofText start
          if files.isDirectory path then
            (filesBelow files FileSystem.pathLimit path).map fun found =>
              (Utf8.decodeLossy found.bytes).drop (if here then 2 else 0)
          else [start]
    if deep && operands.isEmpty then return 1
    let (contents, status) ← readAllOf process operands String.ofList
    let named := (1 < operands.length || options.has 'H' || deep) && !options.has 'h'
    let quiet := options.has 'q'
    let mut found := false
    for (name, content) in contents do
      let lines := (linesOf content).mapIdx fun index line => (index + 1, line)
      let kept := lines.filter fun (_, line) =>
        search.accepts (Utf8.decodeLossy line) != options.has 'v'
      unless kept.isEmpty do found := true
      let label : Text := if named then name ++ [':'] else []
      if quiet then pure ()
      else if options.has 'l' then
        unless kept.isEmpty do process.printText (name ++ ['\n'])
      else if options.has 'c' then
        process.printText (label ++ (toString kept.length).toList ++ ['\n'])
      else
        for (number, line) in kept do
          let place : Text := if options.has 'n' then (toString number).toList ++ [':'] else []
          if options.has 'o' then
            let text := Utf8.decodeLossy line
            for part in expression.matchesIn text.length text.length (search.folded text) do
              process.printText (label ++ place ++ part ++ ['\n'])
          else process.print (Utf8.encode (label ++ place) ++ line ++ [0x0A])
    pure (if status ≠ 0 && !(quiet && found) then 2 else if found then 0 else 1)

end ImageStaging.Host.Utility
