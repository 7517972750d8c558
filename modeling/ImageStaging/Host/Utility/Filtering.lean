import ImageStaging.Host.Pattern
import ImageStaging.Host.Utility.Basic

/-!
# Programs that read lines and print some of them
-/

namespace ImageStaging.Host.Utility

/-- The contents of operands, or of the standard input if there are none. Faults are told. -/
def readAllOf (process : Process) (operands : List Text) (tell : Text → String) :
    Task (List (Text × Bytes) × Nat) := do
  if operands.isEmpty then return ([([], ← process.readAll)], 0)
  let mut contents : List (Text × Bytes) := []
  let mut status := 0
  for operand in operands do
    match ← process.readOperand operand with
    | .ok content => contents := contents ++ [(operand, content)]
    | .error fault => status := max status (← process.failWith (tell operand) fault)
  return (contents, status)

/-- How contents are shown: with signs for what cannot be seen, and with numbers before lines. -/
structure Showing where
  numbers : Bool
  /-- Only lines with something in them get numbers. -/
  skipsBlank : Bool
  lineEnds : Bool
  tabs : Bool
  controls : Bool
  /-- Of several empty lines in a row only one is shown. -/
  squeezes : Bool

namespace Showing

def ofOptions (options : Options) : Showing where
  numbers := options.has 'n' || options.has 'b'
  skipsBlank := options.has 'b'
  lineEnds := ['E', 'A', 'e'].any options.has
  tabs := ['T', 'A', 't'].any options.has
  controls := ['v', 'A', 'e', 't'].any options.has
  squeezes := options.has 's'

def shownByte (showing : Showing) (byte : UInt8) : Bytes :=
  let low (byte : UInt8) : Bytes :=
    if byte < 0x20 then [0x5E, byte + 0x40] else if byte = 0x7F then [0x5E, 0x3F] else [byte]
  if byte = 0x09 then (if showing.tabs then [0x5E, 0x49] else [byte])
  else if showing.controls then
    if byte < 0x80 then low byte else [0x4D, 0x2D] ++ low (byte - 0x80)
  else [byte]

/-- Where a showing has come to. -/
structure State where
  shown : Bytes := []
  lines : Nat := 0
  inLine : Bool := false
  emptyLines : Nat := 0

/-- A line begins, whose number is shown before it. -/
def beginLine (showing : Showing) (isEmpty : Bool) (state : State) : State :=
  if showing.numbers && !(isEmpty && showing.skipsBlank) then
    let number := (toString (state.lines + 1)).toList
    let gap := List.replicate (6 - number.length) ' '
    { state with
      shown := state.shown ++ Utf8.encode (gap ++ number ++ ['\t'])
      lines := state.lines + 1 }
  else state

def step (showing : Showing) (state : State) (byte : UInt8) : State :=
  if byte = 0x0A then
    let lineEnd : Bytes := if showing.lineEnds then [0x24, 0x0A] else [0x0A]
    if state.inLine then
      { state with shown := state.shown ++ lineEnd, inLine := false, emptyLines := 0 }
    else if showing.squeezes && 0 < state.emptyLines then state
    else
      let state := showing.beginLine true state
      { state with shown := state.shown ++ lineEnd, emptyLines := state.emptyLines + 1 }
  else
    let state := if state.inLine then state else showing.beginLine false state
    { state with shown := state.shown ++ showing.shownByte byte, inLine := true, emptyLines := 0 }

/-- Shows one more content. -/
def run (showing : Showing) (state : State) (content : Bytes) : State :=
  content.foldl showing.step { state with shown := [] }

end Showing

def catOptions : OptionTable where
  letters := ['A', 'b', 'e', 'E', 'n', 's', 't', 'T', 'u', 'v']
  long := [("show-all", 'A'), ("number-nonblank", 'b'), ("show-ends", 'E'), ("number", 'n'),
    ("squeeze-blank", 's'), ("show-tabs", 'T'), ("show-nonprinting", 'v')]

def cat : Utility :=
  .withOptions catOptions 1 fun process options => do
    let showing := Showing.ofOptions options
    let mut state : Showing.State := {}
    let mut status := 0
    for operand in if options.operands.isEmpty then [['-']] else options.operands do
      match ← process.readOperand operand with
      | .ok content =>
        if (options.letters.filter (·.1 ≠ 'u')).isEmpty then process.print content
        else
          state := showing.run state content
          process.print state.shown
      | .error fault => status := max status (← process.failWith (String.ofList operand) fault)
    pure status

/-- A count of lines or bytes that a program is given, ten lines being usual. -/
structure Amount where
  count : Nat := 10
  bytes : Bool := false
  /-- Everything from this one on, or everything but so many at the end. -/
  signed : Bool := false

/-- The amount that options ask for, or the word that is none. -/
def Amount.read (options : Options) (sign : Char) : Except String Amount :=
  let ofText (bytes : Bool) (text : Text) : Except String Amount :=
    let digits := if text.head?.any (fun c => c = '-' || c = '+') then text.drop 1 else text
    match (String.ofList digits).toNat? with
    | some count => .ok ⟨count, bytes, text.head? = some sign⟩
    | none =>
      let unit := if bytes then "bytes" else "lines"
      .error s!"invalid number of {unit}: {quoted text}"
  match options.value? 'c', options.value? 'n' with
  | some text, _ => ofText true text
  | none, some text => ofText false text
  | none, none =>
    match (options.letters.filter (·.1.isDigit)).map (·.1) with
    | [] => .ok {}
    | digits => ofText false digits

def firstOf (amount : Amount) (content : Bytes) : Bytes :=
  if amount.bytes then
    content.take (if amount.signed then content.length - amount.count else amount.count)
  else
    let lines := linesOf content
    let kept := if amount.signed then lines.length - amount.count else amount.count
    (ofLines (lines.take kept)).take content.length

def lastOf (amount : Amount) (content : Bytes) : Bytes :=
  if amount.bytes then
    content.drop (if amount.signed then amount.count - 1 else content.length - amount.count)
  else
    let lines := linesOf content
    let dropped := if amount.signed then amount.count - 1 else lines.length - amount.count
    content.drop (ofLines (lines.take dropped)).length

/-- Prints a part of each content, under its name if there are several. -/
def printParts (process : Process) (options : Options) (part : Bytes → Bytes) : Task Nat := do
  let operands := if options.operands.isEmpty then [['-']] else options.operands
  let named := (1 < operands.length || options.has 'v') && !options.has 'q'
  let mut isFirst := true
  let mut status := 0
  for operand in operands do
    let title := if operand = ['-'] then "standard input" else String.ofList operand
    let header := (if isFirst then "" else "\n") ++ s!"==> {title} <==\n"
    match ← process.readOperand operand with
    | .ok content =>
      if named then process.printText header.toList
      isFirst := false
      process.print (part content)
    | .error .isADirectory =>
      if named then process.printText header.toList
      isFirst := false
      status := max status (← process.failWith s!"error reading {quoted operand}" .isADirectory)
    | .error fault =>
      status := max status
        (← process.failWith s!"cannot open {quoted operand} for reading" fault)
  pure status

def digitLetters : List Char :=
  "0123456789".toList

def endOptions (more : List Char) : OptionTable where
  letters := ['q', 'v', 'z'] ++ more ++ digitLetters
  valued := ['n', 'c']
  long := [("quiet", 'q'), ("silent", 'q'), ("verbose", 'v')]

def head : Utility :=
  .withOptions (endOptions []) 1 fun process options =>
    match Amount.read options '-' with
    | .ok amount => printParts process options (firstOf amount)
    | .error message => do
      process.complain s!"{String.ofList process.name}: {message}"
      pure 1

/-- A count without a letter before it goes with one file only. -/
def tail : Utility :=
  .withOptions (endOptions ['f', 'F']) 1 fun process options => do
    let name := String.ofList process.name
    match options.letters.find? (·.1.isDigit), Amount.read options '+' with
    | some (digit, _), .ok amount =>
      if 1 < options.operands.length then
        process.complain s!"{name}: option used in invalid context -- {digit}"
        pure 1
      else printParts process options (lastOf amount)
    | none, .ok amount => printParts process options (lastOf amount)
    | _, .error message =>
      process.complain s!"{name}: {message}"
      pure 1

def wordCount (content : Bytes) : Nat :=
  (content.foldl (fun (count, inWord) byte =>
    let blank := byte = 0x20 || (0x09 ≤ byte && byte ≤ 0x0D)
    if blank then (count, false) else (if inWord then count else count + 1, true))
    (0, false)).1

def padLeft (width : Nat) (text : Text) : Text :=
  List.replicate (width - text.length) ' ' ++ text

/-- One row of counts in columns. -/
def countRow (width : Nat) (name : Text) (counts : List Nat) : Text :=
  let columns := counts.map fun value => padLeft width (toString value).toList
  [' '].intercalate columns ++ (if name = [] then [] else ' ' :: name) ++ ['\n']

/-- The size of what is read, if it can be known before. -/
def sizeBefore? (process : Process) (operand : Text) : Task (Option Nat) := do
  let files ← Task.files
  let sizeOf : Option Entry → Option Nat
    | some (.file content _) => some content.length
    | _ => none
  if operand = ['-'] then
    match process.handles.lookup standardInput with
    | some index =>
      match ← Task.streamAt index with
      | .file location _ _ => pure (sizeOf (files.get? location))
      | _ => pure none
    | none => pure none
  else
    match files.examine (Path.ofText operand) with
    | .ok entry => pure (sizeOf (some entry))
    | .error _ => pure (some 0)

def countOptions : OptionTable where
  letters := ['l', 'w', 'm', 'c', 'L']
  long := [("lines", 'l'), ("words", 'w'), ("chars", 'm'), ("bytes", 'c')]

def count : Utility :=
  .withOptions countOptions 1 fun process options => do
    let asked := ['l', 'w', 'm', 'c'].filter options.has
    let letters := if asked.isEmpty then ['l', 'w', 'c'] else asked
    let countsOf (content : Bytes) : List Nat :=
      letters.map fun letter =>
        match letter with
        | 'l' => content.count 0x0A
        | 'w' => wordCount content
        | _ => content.length
    let operands := if options.operands.isEmpty then [['-']] else options.operands
    let sizes ← operands.mapM (sizeBefore? process)
    let digits := (toString ((sizes.filterMap id).foldl (· + ·) 0)).length
    let width :=
      if letters.length = 1 && operands.length = 1 then 1
      else if sizes.contains none then max 7 digits
      else digits
    let mut total := letters.map fun _ => 0
    let mut status := 0
    for operand in operands do
      let name := if options.operands.isEmpty then [] else operand
      match ← process.readOperand operand with
      | .ok content =>
        let counts := countsOf content
        total := List.zipWith (· + ·) total counts
        process.printText (countRow width name counts)
      | .error fault =>
        status := max status (← process.failWith (String.ofList operand) fault)
        if fault = .isADirectory then process.printText (countRow width name (countsOf []))
    if 1 < operands.length then process.printText (countRow width "total".toList total)
    pure status

/-- The number that a line begins with. -/
def leadingNumber (line : Bytes) : Int :=
  let text := (Utf8.decodeLossy line).dropWhile fun c => c = ' ' || c = '\t'
  let (negative, digits) :=
    match text with
    | '-' :: rest => (true, rest)
    | _ => (false, text)
  let value : Nat :=
    (digits.takeWhile Char.isDigit).foldl (fun value c => value * 10 + (c.toNat - '0'.toNat)) 0
  if negative then -value else value

def dropRepeated : List Bytes → List Bytes
  | first :: second :: rest =>
    if first = second then dropRepeated (first :: rest)
    else first :: dropRepeated (second :: rest)
  | lines => lines
termination_by lines => lines.length

def sortOptions : OptionTable where
  letters := "bcCdfghiMmnRrsuVz".toList
  valued := ['k', 't', 'o', 'S', 'T']
  long := [("numeric-sort", 'n'), ("reverse", 'r'), ("unique", 'u')]

def sort : Utility :=
  .withOptions sortOptions 2 fun process options => do
    let complain (message : String) (operand : Text) (fault : FileFault) : Task Nat := do
      let _ ← process.failWith s!"{message}: {String.ofList operand}" fault
      pure 2
    let files ← Task.files
    for operand in options.operands do
      if operand ≠ ['-'] then
        if let .error fault := files.examine (Path.ofText operand) then
          return (← complain "cannot read" operand fault)
    let mut lines : List Bytes := []
    for operand in if options.operands.isEmpty then [['-']] else options.operands do
      match ← process.readOperand operand with
      | .ok content => lines := lines ++ linesOf content
      | .error fault => return (← complain "read failed" operand fault)
    let below (first second : Bytes) : Bool :=
      if options.has 'n' && leadingNumber first ≠ leadingNumber second then
        leadingNumber first < leadingNumber second
      else first ≤ second
    let sorted := lines.mergeSort below
    let ordered := if options.has 'r' then sorted.reverse else sorted
    process.print (ofLines (if options.has 'u' then dropRepeated ordered else ordered))
    pure 0

/-- The runs of equal lines, each with its length. -/
def runsOf : List Bytes → List (Nat × Bytes)
  | [] => []
  | line :: rest =>
    match runsOf rest with
    | (length, same) :: others =>
      if same = line then (length + 1, line) :: others else (1, line) :: (length, same) :: others
    | [] => [(1, line)]

def uniqueOptions : OptionTable where
  letters := "cdDiuz".toList ++ digitLetters
  valued := ['f', 's', 'w']
  long := [("count", 'c'), ("repeated", 'd'), ("unique", 'u')]

def unique : Utility :=
  .withOptions uniqueOptions 1 fun process options => do
    if let some operand := options.operands[2]? then return (← process.extraOperand operand)
    let source := options.operands.headD ['-']
    match ← process.readOperand source with
    | .error .isADirectory => process.failWith s!"error reading {quoted source}" .isADirectory
    | .error fault => process.failWith (String.ofList source) fault
    | .ok content =>
      let kept := (runsOf (linesOf content)).filter fun (length, _) =>
        (!options.has 'd' || 1 < length) && (!options.has 'u' || length = 1)
      let printed := kept.flatMap fun (length, line) =>
        (if options.has 'c' then Utf8.encode (padLeft 7 (toString length).toList ++ [' ']) else [])
          ++ line ++ [0x0A]
      match options.operands[1]? with
      | none =>
        process.print printed
        pure 0
      | some target =>
        match ← Task.openPath process.handles target (.writing false) with
        | .ok index =>
          let _ ← Task.writeTo index printed
          pure 0
        | .error fault => process.failWith (String.ofList target) fault

/-- The characters that a set of `tr` names, ranges and classes being spelled out. -/
def characterSet : Nat → Text → Text
  | 0, _ => []
  | _, [] => []
  | fuel + 1, '[' :: ':' :: rest =>
    let name := rest.takeWhile (· ≠ ':')
    let members := (Glyph.classRanges name).flatMap fun (first, last) =>
      charactersBetween first last
    members ++ characterSet fuel (rest.drop (name.length + 2))
  | fuel + 1, '\\' :: c :: rest =>
    let meant :=
      match c with
      | 'n' => '\n'
      | 't' => '\t'
      | 'r' => '\r'
      | _ => c
    meant :: characterSet fuel rest
  | fuel + 1, first :: '-' :: last :: rest =>
    charactersBetween first last ++ characterSet fuel rest
  | fuel + 1, c :: rest => c :: characterSet fuel rest
where
  charactersBetween (first last : Char) : Text :=
    (List.range (last.toNat + 1 - first.toNat)).map fun offset => Char.ofNat (first.toNat + offset)

def squeeze (set : Text) : Text → Text
  | first :: second :: rest =>
    if first = second && set.contains first then squeeze set (first :: rest)
    else first :: squeeze set (second :: rest)
  | text => text
termination_by text => text.length

/-- A range in a set whose ends are in the wrong order. -/
def reversedRange? : Text → Option Text
  | '[' :: ':' :: rest => reversedRange? rest
  | '\\' :: _ :: rest => reversedRange? rest
  | first :: '-' :: last :: rest =>
    if last < first then some [first, '-', last] else reversedRange? (last :: rest)
  | _ :: rest => reversedRange? rest
  | [] => none

def translateOptions : OptionTable where
  letters := ['c', 'C', 'd', 's', 't']
  long := [("complement", 'c'), ("delete", 'd'), ("squeeze-repeats", 's')]

/-- What is wrong with the sets of `tr`, if anything is. -/
def translateFault? (options : Options) : Option String :=
  let deletes := options.has 'd'
  let squeezes := options.has 's'
  match options.operands with
  | [] => some "missing operand"
  | [only] =>
    if deletes && squeezes then
      some (s!"missing operand after {quoted only}\n" ++
        "Two strings must be given when both deleting and squeezing repeats.")
    else if deletes || squeezes then none
    else
      some s!"missing operand after {quoted only}\nTwo strings must be given when translating."
  | [_, second] =>
    if deletes && !squeezes then
      some (s!"extra operand {quoted second}\n" ++
        "Only one string may be given when deleting without squeezing repeats.")
    else none
  | _ :: second :: third :: _ =>
    let extra := if deletes && !squeezes then second else third
    some s!"extra operand {quoted extra}"

def translate : Utility :=
  .withOptions translateOptions 1 fun process options => do
    if let some message := translateFault? options then return (← process.refuse message)
    if let some range := options.operands.findSome? reversedRange? then
      process.complain <| s!"{String.ofList process.name}: range-endpoints of {quoted range} " ++
        "are in reverse collating sequence order"
      return 1
    let sets := options.operands.map fun operand => characterSet operand.length operand
    let text := Utf8.decodeLossy (← process.readAll)
    let first := sets.headD []
    let isMember (c : Char) : Bool := first.contains c != (options.has 'c' || options.has 'C')
    let changed :=
      if options.has 'd' then text.filter (!isMember ·)
      else
        match sets.drop 1 with
        | [] => text
        | second :: _ =>
          text.map fun c =>
            if !isMember c then c
            else (second[first.idxOf c]?.or second.getLast?).getD c
    let last := if options.has 'd' then sets.getLastD [] else (sets.drop 1).headD first
    process.printText (if options.has 's' then squeeze last changed else changed)
    pure 0

/-- The positions of a list such as `1,3-4`, an open end being without bound. -/
def inPositions (list : Text) (position : Nat) : Bool :=
  (Text.fields ',' list).any fun range =>
    let numberOf (text : Text) (otherwise : Nat) : Nat :=
      (String.ofList text).toNat?.getD otherwise
    match Text.splitFirst '-' range with
    | none => position = numberOf range 0
    | some (first, last) =>
      numberOf first 1 ≤ position && (last = [] || position ≤ numberOf last 0)

def cutOptions : OptionTable where
  letters := ['n', 's', 'z']
  valued := ['b', 'c', 'd', 'f']
  long := [("only-delimited", 's')]

/-- Numbers and ranges between commas. -/
def isPositionList (list : Text) : Bool :=
  (Text.fields ',' list).all fun range =>
    range.any Char.isDigit && range.all (fun c => c.isDigit || c = '-') && range.count '-' ≤ 1

/-- What is wrong with the options of `cut`, if anything is. -/
def cutFault? (options : Options) : Option String :=
  let byFields := (options.value? 'f').isSome
  match options.letters.filter fun (letter, _) => letter = 'f' || letter = 'c' || letter = 'b' with
  | [] => some "you must specify a list of bytes, characters, or fields"
  | [(_, list)] =>
    if ((options.value? 'd').map List.length).any (1 < ·) then
      some "the delimiter must be a single character"
    else if !isPositionList list then
      some (if byFields then s!"invalid field value {quoted list}"
        else s!"invalid byte/character position {quoted list}")
    else if (Text.fields ',' list).any fun range => range.takeWhile Char.isDigit = ['0'] then
      some (if byFields then "fields are numbered from 1"
        else "byte/character positions are numbered from 1")
    else if !byFields && (options.value? 'd').isSome then
      some "an input delimiter may be specified only when operating on fields"
    else none
  | _ => some "only one list may be specified"

def cut : Utility :=
  .withOptions cutOptions 1 fun process options => do
    if let some message := cutFault? options then return (← process.refuse message)
    let (contents, status) ← readAllOf process options.operands String.ofList
    let separator := ((options.value? 'd').bind List.head?).getD '\t'
    for line in contents.flatMap fun (_, content) => linesOf content do
      let text := Utf8.decodeLossy line
      let parts : List Text :=
        if (options.value? 'f').isSome then
          if text.contains separator then Text.fields separator text else []
        else text.map fun c => [c]
      let list := ((options.value? 'f').or ((options.value? 'c').or (options.value? 'b'))).getD []
      let kept := (parts.mapIdx fun index part => (index + 1, part)).filterMap fun (index, part) =>
        if inPositions list index then some part else none
      let isWhole := (options.value? 'f').isSome && !text.contains separator
      let joint : Text := if (options.value? 'f').isSome then [separator] else []
      unless isWhole && options.has 's' do
        process.printText ((if isWhole then text else joint.intercalate kept) ++ ['\n'])
    pure status

def tee : Utility :=
  .withOptions ⟨['a', 'i', 'p'], [], [("append", 'a')]⟩ 1 fun process options => do
    let content ← process.readAll
    process.print content
    Process.overEach (fun operand => do
      match ← Task.openPath process.handles operand (.writing (options.has 'a')) with
      | .ok index =>
        let _ ← Task.writeTo index content
        pure 0
      | .error fault => process.failWith (String.ofList operand) fault) options.operands

end ImageStaging.Host.Utility
