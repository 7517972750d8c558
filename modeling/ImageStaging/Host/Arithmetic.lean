import ImageStaging.Text.Basic

/-!
# Arithmetic of the shell

Expressions over 64-bit integers and variables, with the operators and priorities of C. Only the
branch that a condition selects is evaluated.
-/

namespace ImageStaging.Host.Arithmetic

inductive Token
  | number (value : Int)
  | name (name : Text)
  | sign (sign : String)
  deriving DecidableEq

inductive Fault
  | expectingPrimary
  | expectingEnd
  | expectingParenthesis
  | expectingColon
  | divisionByZero
  | illegalNumber (text : Text)

def Fault.message : Fault → String
  | .expectingPrimary => "expecting primary"
  | .expectingEnd => "expecting EOF"
  | .expectingParenthesis => "expecting ')'"
  | .expectingColon => "expecting ':'"
  | .divisionByZero => "division by zero"
  | .illegalNumber text => s!"Illegal number: {String.ofList text}"

/-- A value of 64 bits with a sign. -/
def wrap (value : Int) : Int :=
  (Int64.ofInt value).toInt

def digitValue (c : Char) : Nat :=
  if c.isDigit then c.toNat - '0'.toNat else c.toLower.toNat - 'a'.toNat + 10

/-- The value of 64 bits with a sign that is closest to a number. -/
def clamp (value : Int) : Int :=
  max Int64.minValue.toInt (min value Int64.maxValue.toInt)

/-- A number in base 16, 8 or 10, as its first characters tell. -/
def number? (text : Text) : Option Int :=
  let (base, digits) :=
    match text with
    | '0' :: 'x' :: rest | '0' :: 'X' :: rest => (16, rest)
    | '0' :: rest => (8, '0' :: rest)
    | _ => (10, text)
  if digits ≠ [] && digits.all fun c => c.isAlphanum && digitValue c < base then
    some (digits.foldl (fun value c => value * base + digitValue c) 0 : Nat)
  else none

/-- The longest start of a text that is a number; nothing, if there is none. -/
def longestNumber (text : Text) : Text :=
  let sizes := (List.range (text.length + 1)).filter fun size => (number? (text.take size)).isSome
  text.take (sizes.getLastD 0)

/-- The number of a text that may have a sign and blanks before it; an empty text is zero. -/
def integer? (text : Text) : Option Int :=
  match text.dropWhile fun c => c = ' ' || c = '\t' || c = '\n' with
  | [] => some 0
  | '-' :: rest => (number? rest).map (-·)
  | '+' :: rest => number? rest
  | rest => number? rest

def signs : List String :=
  ["<<=", ">>=", "<<", ">>", "<=", ">=", "==", "!=", "&&", "||", "+=", "-=", "*=", "/=", "%=",
    "&=", "|=", "^=", "=", "<", ">", "+", "-", "*", "/", "%", "&", "|", "^", "!", "~", "?", ":",
    "(", ")"]

def tokens : Nat → Text → Option (List Token)
  | _, [] => some []
  | 0, _ => none
  | fuel + 1, c :: rest =>
    let text := c :: rest
    if c = ' ' || c = '\t' || c = '\n' then tokens fuel rest
    else if c.isDigit then
      let word := text.takeWhile Char.isAlphanum
      (number? word).bind fun value =>
        (tokens fuel (text.drop word.length)).map (.number (clamp value) :: ·)
    else if c.isAlpha || c = '_' then
      let word := text.takeWhile fun c => c.isAlphanum || c = '_'
      (tokens fuel (text.drop word.length)).map (.name word :: ·)
    else
      (signs.find? fun sign => sign.toList.isPrefixOf text).bind fun sign =>
        (tokens fuel (text.drop sign.length)).map (.sign sign :: ·)

inductive Expression
  | number (value : Int)
  | name (name : Text)
  | unary (sign : String) (operand : Expression)
  | binary (sign : String) (left right : Expression)
  | choice (condition yes no : Expression)
  | assignment (name : Text) (sign : String) (value : Expression)

/-- The operators between two operands, those that bind less first. -/
def levels : List (List String) :=
  [["||"], ["&&"], ["|"], ["^"], ["&"], ["==", "!="], ["<", "<=", ">", ">="], ["<<", ">>"],
    ["+", "-"], ["*", "/", "%"]]

def assignmentSigns : List String :=
  ["=", "+=", "-=", "*=", "/=", "%=", "&=", "|=", "^=", "<<=", ">>="]

abbrev Parse := Except Fault (Expression × List Token)

mutual

def assignment : Nat → List Token → Parse
  | 0, _ => .error .expectingPrimary
  | fuel + 1, tokens => do
    match tokens with
    | .name name :: .sign sign :: rest =>
      if assignmentSigns.contains sign then
        let (value, rest) ← assignment fuel rest
        pure (.assignment name sign value, rest)
      else choice fuel tokens
    | _ => choice fuel tokens

def choice : Nat → List Token → Parse
  | 0, _ => .error .expectingPrimary
  | fuel + 1, tokens => do
    let (condition, rest) ← operators fuel levels tokens
    match rest with
    | .sign "?" :: rest =>
      let (yes, rest) ← assignment fuel rest
      match rest with
      | .sign ":" :: rest =>
        let (no, rest) ← choice fuel rest
        pure (.choice condition yes no, rest)
      | _ => throw .expectingColon
    | _ => pure (condition, rest)

def operators : Nat → List (List String) → List Token → Parse
  | 0, _, _ => .error .expectingPrimary
  | fuel + 1, [], tokens => operand fuel tokens
  | fuel + 1, level :: levels, tokens => do
    let (left, rest) ← operators fuel levels tokens
    more fuel level levels left rest

/-- The operators of one level that follow an operand. -/
def more : Nat → List String → List (List String) → Expression → List Token → Parse
  | 0, _, _, _, _ => .error .expectingPrimary
  | fuel + 1, level, levels, left, tokens => do
    match tokens with
    | .sign sign :: rest =>
      if level.contains sign then
        let (right, rest) ← operators fuel levels rest
        more fuel level levels (.binary sign left right) rest
      else pure (left, tokens)
    | _ => pure (left, tokens)

def operand : Nat → List Token → Parse
  | 0, _ => .error .expectingPrimary
  | fuel + 1, tokens => do
    match tokens with
    | .number value :: rest => pure (.number value, rest)
    | .name name :: rest => pure (.name name, rest)
    | .sign "(" :: rest =>
      let (inner, rest) ← assignment fuel rest
      match rest with
      | .sign ")" :: rest => pure (inner, rest)
      | _ => throw .expectingParenthesis
    | .sign sign :: rest =>
      if ["+", "-", "!", "~"].contains sign then
        let (inner, rest) ← operand fuel rest
        pure (.unary sign inner, rest)
      else throw .expectingPrimary
    | [] => throw .expectingPrimary

end

def truth (condition : Bool) : Int :=
  if condition then 1 else 0

/-- The complement of every bit. -/
def complement (value : Int) : Int :=
  -value - 1

def onBits (operation : Int64 → Int64 → Int64) (left right : Int) : Int :=
  (operation (Int64.ofInt left) (Int64.ofInt right)).toInt

def applyBinary (sign : String) (left right : Int) : Except Fault Int :=
  match sign with
  | "|" => .ok (onBits (· ||| ·) left right)
  | "^" => .ok (onBits (· ^^^ ·) left right)
  | "&" => .ok (onBits (· &&& ·) left right)
  | "==" => .ok (truth (left = right))
  | "!=" => .ok (truth (left ≠ right))
  | "<" => .ok (truth (left < right))
  | "<=" => .ok (truth (left ≤ right))
  | ">" => .ok (truth (right < left))
  | ">=" => .ok (truth (right ≤ left))
  | "<<" => .ok (onBits (· <<< ·) left right)
  | ">>" => .ok (onBits (· >>> ·) left right)
  | "+" => .ok (wrap (left + right))
  | "-" => .ok (wrap (left - right))
  | "*" => .ok (wrap (left * right))
  | "/" => if right = 0 then .error .divisionByZero else .ok (wrap (Int.tdiv left right))
  | "%" => if right = 0 then .error .divisionByZero else .ok (Int.tmod left right)
  | _ => .error .expectingPrimary

/-- The assignments made so far, the last one first. -/
abbrev Evaluation := StateT (List (Text × Int)) (Except Fault)

def valueOf (lookup : Text → Text) (name : Text) : Evaluation Int := do
  match (← get).lookup name with
  | some value => pure value
  | none =>
    match integer? (lookup name) with
    | some value => pure (clamp value)
    | none => throw (.illegalNumber (lookup name))

def evaluate (lookup : Text → Text) : Expression → Evaluation Int
  | .number value => pure value
  | .name name => valueOf lookup name
  | .unary sign operand => do
    let value ← evaluate lookup operand
    pure <|
      match sign with
      | "-" => wrap (-value)
      | "!" => truth (value = 0)
      | "~" => complement value
      | _ => value
  | .binary sign left right => do
    let first ← evaluate lookup left
    match sign with
    | "&&" => if first = 0 then pure 0 else pure (truth ((← evaluate lookup right) ≠ 0))
    | "||" => if first ≠ 0 then pure 1 else pure (truth ((← evaluate lookup right) ≠ 0))
    | _ => applyBinary sign first (← evaluate lookup right)
  | .choice condition yes no => do
    if (← evaluate lookup condition) ≠ 0 then evaluate lookup yes else evaluate lookup no
  | .assignment name sign value => do
    let right ← evaluate lookup value
    let result ←
      if sign = "=" then pure right
      else do
        let left ← valueOf lookup name
        applyBinary (String.ofList sign.toList.dropLast) left right
    modify ((name, result) :: ·)
    pure result

/-- The value of an expression and the assignments that it makes, the last one first. -/
def run (lookup : Text → Text) (text : Text) : Except Fault (Int × List (Text × Int)) := do
  match tokens (text.length + 1) text with
  | none => throw .expectingPrimary
  | some [] => pure (0, [])
  | some list =>
    let (expression, rest) ← assignment (20 * list.length + 40) list
    unless rest.isEmpty do throw .expectingEnd
    evaluate lookup expression []

end ImageStaging.Host.Arithmetic
