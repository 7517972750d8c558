import ImageStaging.Host.Condition
import ImageStaging.Host.Utility.Basic

/-!
# The program that answers conditions

It knows the same questions as the shell. How the words are read depends on how many there are, and
it has complaints of its own.
-/

namespace ImageStaging.Host.Utility

namespace Judging

inductive Fault
  | missingBracket
  | missingArgument (last : Text)
  | extraArgument (word : Text)
  | binaryExpected (word : Text)
  | unaryExpected (word : Text)
  | closingExpected
  | closingExpectedNot (word : Text)
  | invalidInteger (word : Text)

def Fault.message : Fault → String
  | .missingBracket => "missing ']'"
  | .missingArgument last => s!"missing argument after {quoted last}"
  | .extraArgument word => s!"extra argument {quoted word}"
  | .binaryExpected word => s!"{quoted word}: binary operator expected"
  | .unaryExpected word => s!"{quoted word}: unary operator expected"
  | .closingExpected => "')' expected"
  | .closingExpectedNot word => s!"')' expected, found {quoted word}"
  | .invalidInteger word => s!"invalid integer {quoted word}"

def binarySigns : List String :=
  ["=", "!=", "==", "-nt", "-ot", "-ef", "-eq", "-ne", "-lt", "-le", "-gt", "-ge"]

def isBinary (word : Text) : Bool :=
  binarySigns.contains (String.ofList word)

/-- The words that are asked about: the files, and the last of all words. -/
structure Question where
  files : FileSystem
  last : Text

/-- An answer, and the words behind those that it was found from. -/
abbrev Answer := Except Fault (Bool × List Text)

namespace Question

def binary (question : Question) (left sign right : Text) : Except Fault Bool :=
  let sign := if sign = ['=', '='] then ['='] else sign
  match Condition.binary question.files left sign right with
  | .ok answer => .ok answer
  | .error (.illegalNumber word) => .error (.invalidInteger word)
  | .error _ => .ok false

def unary (question : Question) : List Text → Answer
  | [] => .error (.missingArgument question.last)
  | [_] => .error (.missingArgument question.last)
  | sign :: word :: rest =>
    if Condition.isUnary sign || sign = ['-', 'N'] then
      .ok (Condition.unary question.files sign word, rest)
    else .error (.unaryExpected sign)

def isSign (word : Text) : Bool :=
  word.length = 2 && word.head? = some '-'

def one : List Text → Answer
  | [] => .ok (false, [])
  | word :: rest => .ok (word ≠ [], rest)

def negate (answer : Answer) : Answer :=
  answer.map fun (value, rest) => (!value, rest)

def two (question : Question) (words : List Text) : Answer :=
  match words with
  | ['!'] :: rest => negate (one rest)
  | sign :: _ =>
    if isSign sign then question.unary words else .error (.missingArgument question.last)
  | [] => .ok (false, [])

mutual

/-- The answer to the first `count` words. -/
def counted (question : Question) : Nat → Nat → List Text → Answer
  | 0, _, words => .ok (false, words)
  | fuel + 1, count, words =>
    match count, words with
    | 1, _ => one words
    | 2, _ => two question words
    | 3, left :: sign :: right :: rest =>
      if isBinary sign then do pure (← question.binary left sign right, rest)
      else if left = ['!'] then negate (two question (sign :: right :: rest))
      else if left = ['('] && right = [')'] then .ok (sign ≠ [], rest)
      else if sign = ['-', 'a'] || sign = ['-', 'o'] then disjunction question fuel words
      else .error (.binaryExpected sign)
    | 4, first :: second :: third :: fourth :: rest =>
      if first = ['!'] then negate (counted question fuel 3 (second :: third :: fourth :: rest))
      else if first = ['('] && fourth = [')'] then do
        let (answer, _) ← two question [second, third]
        pure (answer, rest)
      else disjunction question fuel words
    | _, _ => disjunction question fuel words

def disjunction (question : Question) : Nat → List Text → Answer
  | 0, words => .ok (false, words)
  | fuel + 1, words => do
    let (first, rest) ← conjunction question fuel words
    match rest with
    | ['-', 'o'] :: more => do
      let (second, rest) ← disjunction question fuel more
      pure (first || second, rest)
    | _ => pure (first, rest)

def conjunction (question : Question) : Nat → List Text → Answer
  | 0, words => .ok (false, words)
  | fuel + 1, words => do
    let (first, rest) ← term question fuel words
    match rest with
    | ['-', 'a'] :: more => do
      let (second, rest) ← conjunction question fuel more
      pure (first && second, rest)
    | _ => pure (first, rest)

def term (question : Question) : Nat → List Text → Answer
  | 0, words => .ok (false, words)
  | fuel + 1, words =>
    match words with
    | [] => .error (.missingArgument question.last)
    | ['!'] :: rest =>
      if rest.isEmpty then .error (.missingArgument question.last)
      else negate (term question fuel rest)
    | ['('] :: rest => do
      if rest.isEmpty then throw (.missingArgument question.last)
      let before := (rest.drop 1).takeWhile (· ≠ [')'])
      let count := if before.length < 3 && before.length + 1 < rest.length then before.length + 1
        else rest.length
      let (answer, rest) ← counted question fuel count rest
      match rest with
      | [')'] :: rest => pure (answer, rest)
      | word :: _ => throw (.closingExpectedNot word)
      | [] => throw .closingExpected
    | left :: sign :: right :: rest =>
      if isBinary sign then do pure (← question.binary left sign right, rest)
      else if isSign left then question.unary words
      else .ok (left ≠ [], sign :: right :: rest)
    | first :: rest =>
      if isSign first then question.unary words else .ok (first ≠ [], rest)

end

end Question

def answer (files : FileSystem) (bracketed : Bool) (words : List Text) : Except Fault Bool := do
  if bracketed && words.getLast? ≠ some [']'] then throw .missingBracket
  let words := if bracketed then words.dropLast else words
  if words = [] then return false
  let question : Question := ⟨files, words.getLastD []⟩
  let (answer, rest) ← question.counted (10 * words.length + 20) words.length words
  match rest with
  | [] => pure answer
  | word :: _ => throw (.extraArgument word)

end Judging

def judge (bracketed : Bool) : Utility := fun process => do
  match Judging.answer (← Task.files) bracketed process.arguments with
  | .ok answer => pure (if answer then 0 else 1)
  | .error fault =>
    process.complain s!"{String.ofList process.name}: {fault.message}"
    pure 2

end ImageStaging.Host.Utility
