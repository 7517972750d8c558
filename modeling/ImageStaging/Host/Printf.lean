import ImageStaging.Host.Arithmetic
import ImageStaging.Host.Escape

/-!
# Printing by a format

A format is text with directives in it. Each directive takes the next argument, and the format is
used again as long as arguments are left; missing arguments count as empty.
-/

namespace ImageStaging.Host.Printf

inductive Directive
  | bytes (bytes : Bytes)
  /-- Width and precision are `none` inside if the next argument gives them. -/
  | argument (flags : Text) (width precision : Option (Option Nat)) (letter : Char)
  /-- Printing ends here. -/
  | stop
  deriving DecidableEq

inductive Fault
  /-- The format ends within a directive. -/
  | missingLetter (directive : Text)
  | invalidDirective (directive : Text)
  | notNumeric (argument : Text)
  | notConverted (argument : Text)
  | outOfRange (argument : Text)
  deriving DecidableEq

def isFlag (c : Char) : Bool :=
  c = '-' || c = '+' || c = ' ' || c = '#' || c = '0'

def letters : List Char :=
  ['s', 'b', 'c', 'd', 'i', 'u', 'o', 'x', 'X']

def natOf (digits : Text) : Nat :=
  digits.foldl (fun value c => value * 10 + (c.toNat - '0'.toNat)) 0

/-- The width of a directive, and the text behind it. -/
def readWidth (text : Text) : Option (Option Nat) × Text :=
  match text with
  | '*' :: rest => (some none, rest)
  | _ =>
    let digits := text.takeWhile Char.isDigit
    (if digits = [] then none else some (some (natOf digits)), text.drop digits.length)

/-- The directive behind a percent sign, and the text behind it. -/
def readDirective (text : Text) : Except Fault (Directive × Text) :=
  let flags := text.takeWhile isFlag
  let (width, rest) := readWidth (text.drop flags.length)
  let (precision, rest) :=
    match rest with
    | '.' :: more =>
      let (precision, rest) := readWidth more
      (some (precision.getD (some 0)), rest)
    | _ => (none, rest)
  match rest with
  | letter :: more =>
    if letters.contains letter then .ok (.argument flags width precision letter, more)
    else
      .error (.invalidDirective ('%' :: text.take (text.length - more.length)))
  | [] => .error (.missingLetter ('%' :: text))

/-- The text up to the next percent sign. -/
def plainLength (text : Text) : Nat :=
  (text.takeWhile (· ≠ '%')).length

/-- The directives of a format, up to the first that is invalid. -/
def parse (style : Escape.Style) : Nat → Text → List Directive × Option Fault
  | 0, _ => ([], none)
  | _, [] => ([], none)
  | fuel + 1, '%' :: '%' :: rest =>
    let (more, fault) := parse style fuel rest
    (.bytes [0x25] :: more, fault)
  | fuel + 1, '%' :: rest =>
    match readDirective rest with
    | .error fault => ([], some fault)
    | .ok (directive, rest) =>
      let (more, fault) := parse style fuel rest
      (directive :: more, fault)
  | fuel + 1, text =>
    match Escape.print style (text.take (plainLength text)) with
    | (bytes, true) => ([.bytes bytes, .stop], none)
    | (bytes, false) =>
      let (more, fault) := parse style fuel (text.drop (plainLength text))
      (.bytes bytes :: more, fault)

/-- The number that an argument stands for. After a quote, it is that of the next character. -/
def numberOf (argument : Text) : Int × Option Fault :=
  match argument with
  | [] => (0, none)
  | '\x27' :: c :: _ => (c.toNat, none)
  | '\x22' :: c :: _ => (c.toNat, none)
  | _ =>
    match Arithmetic.integer? argument with
    | some value => (value, none)
    | none =>
      let (sign, body) : Text × Text :=
        match argument with
        | '-' :: rest => (['-'], rest)
        | '+' :: rest => ([], rest)
        | _ => ([], argument)
      match Arithmetic.longestNumber body with
      | [] => (0, some (.notNumeric argument))
      | digits => ((Arithmetic.integer? (sign ++ digits)).getD 0, some (.notConverted argument))

def pad (flags : Text) (width : Nat) (body : Bytes) : Bytes :=
  let gap := List.replicate (width - body.length) 0x20
  if flags.contains '-' then body ++ gap else gap ++ body

/-- The digits of a number in a base. -/
def digitsOf (base value : Nat) : Text :=
  Nat.toDigits base value

def isSigned (letter : Char) : Bool :=
  letter = 'd' || letter = 'i'

/-- The number that is printed for one that may be too large or too small, if it is. -/
def withinRange (letter : Char) (value : Int) : Option Int :=
  if isSigned letter then
    if Arithmetic.clamp value = value then none else some (Arithmetic.clamp value)
  else if value.natAbs < UInt64.size then none else some (UInt64.size - 1 : Nat)

def formatNumber (flags : Text) (width : Nat) (precision : Option Nat) (letter : Char)
    (value : Int) : Bytes :=
  let signed := isSigned letter
  let magnitude := if signed then value.natAbs else (UInt64.ofInt value).toNat
  let digits :=
    match letter with
    | 'o' => digitsOf 8 magnitude
    | 'x' => digitsOf 16 magnitude
    | 'X' => (digitsOf 16 magnitude).map Char.toUpper
    | _ => digitsOf 10 magnitude
  let sign : Text :=
    if signed && value < 0 then ['-']
    else if signed && flags.contains '+' then ['+']
    else if signed && flags.contains ' ' then [' ']
    else if flags.contains '#' && magnitude ≠ 0 then
      (match letter with
      | 'o' => ['0']
      | 'x' => ['0', 'x']
      | 'X' => ['0', 'X']
      | _ => [])
    else []
  let least :=
    match precision with
    | some least => least
    | none =>
      if flags.contains '0' && !flags.contains '-' then width - sign.length else 0
  let zeros := List.replicate (least - digits.length) '0'
  pad flags width (Utf8.encode (sign ++ zeros ++ digits))

/-- What one directive prints for an argument, whether printing goes on, and what is wrong. -/
def format (style : Escape.Style) (flags : Text) (width : Nat) (precision : Option Nat)
    (letter : Char) (argument : Text) : Bytes × Bool × Option Fault :=
  let cut (bytes : Bytes) : Bytes :=
    match precision with
    | some most => bytes.take most
    | none => bytes
  match letter with
  | 's' => (pad flags width (cut (Utf8.encode argument)), true, none)
  | 'b' =>
    let (bytes, ended) := Escape.print style argument
    (pad flags width (cut bytes), !ended, none)
  | 'c' => (pad flags width ((Utf8.encode argument ++ [0]).take 1), true, none)
  | _ =>
    let (value, fault) := numberOf argument
    let (value, fault) :=
      match withinRange letter value with
      | some closest => (closest, some (.outOfRange argument))
      | none => (value, fault)
    (formatNumber flags width precision letter value, true, fault)

/-- What a run of a format leaves behind. -/
structure Outcome where
  printed : Bytes := []
  faults : List Fault := []
  ended : Bool := false
  /-- No directive takes an argument. -/
  takesNone : Bool := false

/-- Prints the directives once, and returns the arguments that are left. -/
def runOnce (style : Escape.Style) : List Directive → List Text → Outcome → Outcome × List Text
  | [], arguments, outcome => (outcome, arguments)
  | .bytes bytes :: rest, arguments, outcome =>
    runOnce style rest arguments { outcome with printed := outcome.printed ++ bytes }
  | .stop :: _, arguments, outcome => ({ outcome with ended := true }, arguments)
  | .argument flags width precision letter :: rest, arguments, outcome =>
    let size (asked : Option (Option Nat)) (arguments : List Text) : Option Int × List Text :=
      match asked with
      | none => (none, arguments)
      | some (some value) => (some value, arguments)
      | some none => (some (numberOf (arguments.headD [])).1, arguments.drop 1)
    let (width, arguments) := size width arguments
    let (precision, arguments) := size precision arguments
    let width := width.getD 0
    let flags := if width < 0 then '-' :: flags else flags
    let (bytes, goesOn, fault) :=
      format style flags width.natAbs (precision.map Int.toNat) letter (arguments.headD [])
    let outcome :=
      { outcome with
        printed := outcome.printed ++ bytes
        faults := outcome.faults ++ fault.toList }
    if goesOn then runOnce style rest (arguments.drop 1) outcome
    else ({ outcome with ended := true }, arguments.drop 1)

def takesArguments : Directive → Bool
  | .argument _ _ _ _ => true
  | _ => false

/-- Prints the directives for as long as arguments are left. -/
def runAll (style : Escape.Style) (directives : List Directive) :
    Nat → List Text → Outcome → Outcome
  | 0, _, outcome => outcome
  | fuel + 1, arguments, outcome =>
    let (outcome, left) := runOnce style directives arguments outcome
    if outcome.ended || left.isEmpty || !directives.any takesArguments then outcome
    else runAll style directives fuel left outcome

/-- The format and the arguments may know different escapes. -/
def run (style argumentStyle : Escape.Style) (text : Text) (arguments : List Text) : Outcome :=
  let (directives, fault) := parse style (text.length + 1) text
  let directives := if fault.isSome then directives ++ [.stop] else directives
  let outcome := runAll argumentStyle directives (arguments.length + 1) arguments {}
  { outcome with
    faults := outcome.faults ++ fault.toList
    takesNone := fault.isNone && !directives.any takesArguments }

end ImageStaging.Host.Printf
