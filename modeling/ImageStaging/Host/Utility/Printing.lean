import ImageStaging.Host.Printf
import ImageStaging.Host.Utility.Basic

/-!
# Programs that print what they are told
-/

namespace ImageStaging.Host.Utility

/-- How `echo` prints: with a line feed at the end or not, reading escapes or not. -/
structure EchoStyle where
  lineFeed : Bool := true
  escapes : Bool := false

namespace EchoStyle

def adjust (style : EchoStyle) (letter : Char) : Option EchoStyle :=
  match letter with
  | 'n' => some { style with lineFeed := false }
  | 'e' => some { style with escapes := true }
  | 'E' => some { style with escapes := false }
  | _ => none

/-- The style that the leading options ask for, and the words after them. -/
def read (style : EchoStyle) : List Text → EchoStyle × List Text
  | [] => (style, [])
  | word :: rest =>
    match word with
    | '-' :: letter :: letters =>
      match (letter :: letters).foldlM adjust style with
      | some next => next.read rest
      | none => (style, word :: rest)
    | _ => (style, word :: rest)

/-- The words with a space between each two. -/
def print (style : EchoStyle) (reading : Escape.Style) (words : List Text) : Bytes :=
  let line := [' '].intercalate words
  let (bytes, ended) :=
    if style.escapes then Escape.print reading line else (Utf8.encode line, false)
  if style.lineFeed && !ended then bytes ++ [0x0A] else bytes

end EchoStyle

def echo : Utility := fun process => do
  let (style, words) := EchoStyle.read {} process.arguments
  process.print (style.print { leadingZero := true } words)
  pure 0

def printfComplaint : Printf.Fault → String
  | .missingLetter directive =>
    s!"{String.ofList directive}: invalid conversion specification"
  | .invalidDirective directive =>
    s!"{String.ofList directive}: invalid conversion specification"
  | .notNumeric argument => s!"{quoted argument}: expected a numeric value"
  | .notConverted argument => s!"{quoted argument}: value not completely converted"
  | .outOfRange argument => s!"{quoted argument}: Numerical result out of range"

def printf : Utility := fun process => do
  let words :=
    if process.arguments.head? = some ['-', '-'] then process.arguments.drop 1
    else process.arguments
  match words with
  | [] => process.missingOperand
  | format :: arguments =>
    let outcome := Printf.run { leadingZero := false } {} format arguments
    process.print outcome.printed
    for fault in outcome.faults do
      process.complain s!"printf: {printfComplaint fault}"
    if outcome.takesNone then
      if let some first := arguments.head? then
        process.complain <| "printf: warning: ignoring excess arguments, " ++
          s!"starting with {quoted first}"
    pure (if outcome.faults.isEmpty then 0 else 1)

/-- The last name of a path. -/
def lastName (path : Text) : Text :=
  let trimmed := Text.dropEnd (· = '/') path
  if trimmed = [] then (if path = [] then [] else ['/'])
  else (trimmed.reverse.takeWhile (· ≠ '/')).reverse

/-- What comes before the last name of a path. -/
def directoryOf (path : Text) : Text :=
  let trimmed := Text.dropEnd (· = '/') path
  let front := Text.dropEnd (· ≠ '/') trimmed
  if trimmed = [] then (if path = [] then ['.'] else ['/'])
  else if front = [] then ['.']
  else
    match Text.dropEnd (· = '/') front with
    | [] => ['/']
    | directory => directory

def withoutEnding (ending name : Text) : Text :=
  if ending ≠ [] && ending.isSuffixOf name && ending ≠ name then
    name.take (name.length - ending.length)
  else name

def baseName : Utility :=
  .withOptions ⟨['a', 'z'], ['s'], [("multiple", 'a'), ("zero", 'z')]⟩ 1 fun process options => do
    let lineEnd := if options.has 'z' then '\x00' else '\n'
    let tell (ending path : Text) : Task Unit :=
      process.printText (withoutEnding ending (lastName path) ++ [lineEnd])
    match options.operands with
    | [] => process.missingOperand
    | operands =>
      if options.has 'a' || options.has 's' then
        for path in operands do tell ((options.value? 's').getD []) path
        pure 0
      else
        match operands with
        | _ :: _ :: third :: _ => process.extraOperand third
        | [path, ending] =>
          tell ending path
          pure 0
        | path :: _ =>
          tell [] path
          pure 0
        | [] => pure 0

def directoryName : Utility :=
  .withOptions ⟨['z'], [], [("zero", 'z')]⟩ 1 fun process options => do
    if options.operands.isEmpty then return (← process.missingOperand)
    let lineEnd := if options.has 'z' then '\x00' else '\n'
    for path in options.operands do
      process.printText (directoryOf path ++ [lineEnd])
    pure 0

def sequenceFrom (last step : Int) : Nat → Int → List Int
  | 0, _ => []
  | fuel + 1, value =>
    if (0 < step && last < value) || (step < 0 && value < last) then []
    else value :: sequenceFrom last step fuel (value + step)

/-- A sequence of integers. A word with a dash may be a negative number. -/
def sequence : Utility := fun process => do
  match process.arguments.find? fun word => ((String.ofList word).toInt?).isNone with
  | some ('-' :: letter :: _) => process.refuse (OptionFault.unknownLetter letter).message
  | some word => process.refuse s!"invalid floating point argument: {quoted word}"
  | none =>
    match process.arguments.filterMap fun word => (String.ofList word).toInt? with
    | [] => process.missingOperand
    | [last] => print process 1 1 last
    | [first, last] => print process first 1 last
    | [first, step, last] =>
      if step = 0 then process.refuse "invalid Zero increment value: '0'"
      else print process first step last
    | _ => process.extraOperand (process.arguments.getD 3 [])
where
  print (process : Process) (first step last : Int) : Task Nat := do
    let values := sequenceFrom last step ((last - first).natAbs / step.natAbs + 1) first
    process.printText (values.flatMap fun value => (toString value).toList ++ ['\n'])
    pure 0

/-- The path of the working directory. -/
def placeText (files : FileSystem) : Text :=
  Utf8.decodeLossy (0x2F :: [0x2F].intercalate (files.workingDirectory.map Name.bytes))

def place : Utility :=
  .withOptions ⟨['L', 'P'], [], [("logical", 'L'), ("physical", 'P')]⟩ 1 fun process options => do
    unless options.operands.isEmpty do
      process.complain s!"{String.ofList process.name}: ignoring non-option arguments"
    process.printText (placeText (← Task.files) ++ ['\n'])
    pure 0

/-- Numbers with or without a fraction and a unit of time. -/
def isInterval (word : Text) : Bool :=
  let digits :=
    match word.getLast? with
    | some c => if ['s', 'm', 'h', 'd'].contains c then word.dropLast else word
    | none => word
  digits.any Char.isDigit && digits.all (fun c => c.isDigit || c = '.') && digits.count '.' ≤ 1

/-- No time passes for anybody else while a program sleeps. -/
def sleep : Utility :=
  .withOptions ⟨[], [], []⟩ 1 fun process options => do
    if options.operands.isEmpty then return (← process.missingOperand)
    match options.operands.filter fun word => !isInterval word with
    | [] => pure 0
    | wrong =>
      let name := String.ofList process.name
      for word in wrong.dropLast do
        process.complain s!"{name}: invalid time interval {quoted word}"
      process.refuse s!"invalid time interval {quoted (wrong.getLastD [])}"

end ImageStaging.Host.Utility
