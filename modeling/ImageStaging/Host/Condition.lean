import ImageStaging.FileSystem.Query
import ImageStaging.Host.Arithmetic

/-!
# Conditions

The words of a condition are questions about files, texts and numbers, joined by signs for "not",
"and" and "or". Each reader below is given the words from the one it begins at, and returns them
from the last one it used.
-/

namespace ImageStaging.Host.Condition

inductive Fault
  | missingBracket
  | unexpectedOperator (word : Text)
  | argumentExpected (sign : Text)
  | parenthesisExpected
  | illegalNumber (word : Text)

def Fault.message : Fault → String
  | .missingBracket => "missing ]"
  | .unexpectedOperator word => s!"{String.ofList word}: unexpected operator"
  | .argumentExpected sign => s!"{String.ofList sign}: argument expected"
  | .parenthesisExpected => "closing paren expected"
  | .illegalNumber word => s!"Illegal number: {String.ofList word}"

def unarySigns : List String :=
  ["-b", "-c", "-d", "-e", "-f", "-g", "-G", "-h", "-k", "-L", "-n", "-O", "-p", "-r", "-s", "-S",
    "-t", "-u", "-w", "-x", "-z"]

def binarySigns : List String :=
  ["=", "!=", "<", ">", "-eq", "-ge", "-gt", "-le", "-lt", "-ne", "-ef", "-nt", "-ot"]

def isUnary (word : Text) : Bool :=
  unarySigns.contains (String.ofList word)

def isBinary (word : Text) : Bool :=
  binarySigns.contains (String.ofList word)

/-- A number of 64 bits in decimal digits, with a sign and blanks around it. -/
def number? (word : Text) : Option Int :=
  let body := Text.dropEnd Text.isWhiteSpace (word.dropWhile Text.isWhiteSpace)
  let (negative, digits) :=
    match body with
    | '-' :: rest => (true, rest)
    | '+' :: rest => (false, rest)
    | _ => (false, body)
  if digits ≠ [] && digits.all Char.isDigit then
    let value : Int := digits.foldl (fun value c => value * 10 + (c.toNat - '0'.toNat)) (0 : Nat)
    let value := if negative then -value else value
    if Arithmetic.clamp value = value then some value else none
  else none

def number (word : Text) : Except Fault Int :=
  match number? word with
  | some value => .ok value
  | none => .error (.illegalNumber word)

def entryMeets (sign : String) : Entry → Bool
  | .directory => ["-d", "-e", "-r", "-w", "-x", "-s", "-O", "-G"].contains sign
  | .file content executable =>
    ["-f", "-e", "-r", "-w", "-O", "-G"].contains sign || (sign = "-x" && executable) ||
      (sign = "-s" && content ≠ [])
  | .link _ => ["-h", "-L"].contains sign
  | .fullDevice => ["-c", "-e", "-r", "-w"].contains sign

def isDevice (word : Text) : Bool :=
  ["/dev/null", "/dev/full", "/dev/zero"].contains (String.ofList word)

def unary (files : FileSystem) (sign word : Text) : Bool :=
  match String.ofList sign with
  | "-n" => word ≠ []
  | "-z" => word = []
  | "-t" => false
  | sign =>
    if isDevice word then entryMeets sign .fullDevice
    else
      let linkAsked := sign = "-h" || sign = "-L"
      let path := Path.ofText word
      match if linkAsked then files.examineLink path else files.examine path with
      | .ok entry => entryMeets sign entry
      | .error _ => false

def binary (files : FileSystem) (left sign right : Text) : Except Fault Bool := do
  match String.ofList sign with
  | "=" => pure (left = right)
  | "!=" => pure (left ≠ right)
  | "<" => pure (decide (left < right))
  | ">" => pure (decide (right < left))
  | "-ef" =>
    match files.locate .target (Path.ofText left), files.locate .target (Path.ofText right) with
    | .ok first, .ok second => pure (first = second)
    | _, _ => pure false
  | "-nt" | "-ot" => pure false
  | sign =>
    let first ← number left
    let second ← number right
    pure <|
      match sign with
      | "-eq" => first = second
      | "-ne" => first ≠ second
      | "-lt" => first < second
      | "-le" => first ≤ second
      | "-gt" => second < first
      | _ => second ≤ first

/-- What the word at a place is, given that more words follow it. -/
inductive Role
  | nothing
  | operand
  | unary
  | binary
  | negation
  | both
  | either
  | opening
  | closing
  deriving DecidableEq

def roleOf : List Text → Role
  | [] => .nothing
  | word :: rest =>
    if isUnary word then
      match rest with
      | [] => .operand
      | [_] => .unary
      | next :: _ => if isBinary next then .operand else .unary
    else if isBinary word then .binary
    else
      match String.ofList word with
      | "!" => if rest.isEmpty then .operand else .negation
      | "-a" => .both
      | "-o" => .either
      | "(" => if rest.isEmpty then .operand else .opening
      | ")" => .closing
      | _ => .operand

abbrev Answer := Except Fault (Bool × List Text)

mutual

def disjunction (files : FileSystem) : Nat → List Text → Answer
  | 0, words => .ok (false, words)
  | fuel + 1, words => do
    let (first, last) ← conjunction files fuel words
    if roleOf (last.drop 1) = .either then
      let (second, last) ← disjunction files fuel (last.drop 2)
      pure (first || second, last)
    else pure (first, last)

def conjunction (files : FileSystem) : Nat → List Text → Answer
  | 0, words => .ok (false, words)
  | fuel + 1, words => do
    let (first, last) ← negation files fuel words
    if roleOf (last.drop 1) = .both then
      let (second, last) ← conjunction files fuel (last.drop 2)
      pure (first && second, last)
    else pure (first, last)

def negation (files : FileSystem) : Nat → List Text → Answer
  | 0, words => .ok (false, words)
  | fuel + 1, words => do
    if roleOf words = .negation then
      let (inner, last) ← negation files fuel (words.drop 1)
      pure (!inner, last)
    else question files fuel words

def question (files : FileSystem) : Nat → List Text → Answer
  | 0, words => .ok (false, words)
  | fuel + 1, words => do
    match roleOf words, words with
    | .nothing, _ => pure (false, words)
    | .opening, _ :: rest =>
      if roleOf rest = .closing then pure (false, rest)
      else
        let (inner, last) ← disjunction files fuel rest
        if roleOf (last.drop 1) = .closing then pure (inner, last.drop 1)
        else throw .parenthesisExpected
    | .unary, sign :: operand :: rest => pure (unary files sign operand, operand :: rest)
    | _, left :: sign :: rest =>
      if roleOf (sign :: rest) = .binary then
        match rest with
        | right :: _ => pure (← binary files left sign right, rest)
        | [] => throw (.argumentExpected sign)
      else pure (left ≠ [], words)
    | _, [operand] => pure (operand ≠ [], words)
    | _, [] => pure (false, words)

end

/-- The words without one sign of negation before them or parentheses around them, as far as their
number tells that they are such. -/
def judge (files : FileSystem) : Nat → List Text → Except Fault Bool
  | 0, _ => .ok false
  | fuel + 1, words => do
    let whole (words : List Text) : Except Fault Bool := do
      let (answer, last) ← disjunction files (10 * words.length + 20) words
      match last with
      | used :: _ :: _ => throw (.unexpectedOperator used)
      | _ => pure answer
    match words with
    | [] => pure false
    | [left, sign, right] =>
      if isBinary sign then binary files left sign right
      else if left = ['('] && right = [')'] then whole [sign]
      else if left = ['!'] then do pure (!(← judge files fuel [sign, right]))
      else whole words
    | [first, second, third, last] =>
      if first = ['('] && last = [')'] then whole [second, third]
      else if first = ['!'] then do pure (!(← judge files fuel [second, third, last]))
      else whole words
    | _ => whole words

/-- The answer to the words of a condition, which end in a bracket if they began with one. -/
def answer (files : FileSystem) (bracketed : Bool) (words : List Text) : Except Fault Bool :=
  if bracketed then
    if words.getLast? = some [']'] then judge files 4 words.dropLast
    else .error .missingBracket
  else judge files 4 words

end ImageStaging.Host.Condition
