import ImageStaging.Text.Basic

/-!
# Placeholders

A placeholder is an opening mark, one or more characters other than a percent sign, and two percent
signs. A template is read from left to right: where a placeholder begins it is taken whole, and
anywhere else one character is taken as it is. `concat_segments` says that reading loses nothing.
-/

namespace ImageStaging.Template

/-- What a placeholder stands for. -/
inductive Kind
  | variable
  | file
  deriving DecidableEq, Repr

def percent : Char := '%'

def closing : Text := [percent, percent]

def fileMark : Text := ['_', 'C', 'O', 'M', 'M', 'O', 'N', '/']

def Kind.opening : Kind → Text
  | .variable => [percent, percent]
  | .file => percent :: percent :: fileMark

inductive Segment
  | literal (c : Char)
  | placeholder (inner : Text)
  deriving DecidableEq, Repr

def placeholderText (kind : Kind) (inner : Text) : Text :=
  kind.opening ++ inner ++ closing

def Segment.text (kind : Kind) : Segment → Text
  | .literal c => [c]
  | .placeholder inner => placeholderText kind inner

def isInner (c : Char) : Bool :=
  c != percent

/-- The text without the given beginning. -/
def dropFront? (front text : Text) : Option Text :=
  if front.isPrefixOf text then some (text.drop front.length) else none

theorem dropFront?_eq_some {front text rest : Text} :
    dropFront? front text = some rest ↔ text = front ++ rest := by
  unfold dropFront?
  split
  · next h =>
    obtain ⟨tail, rfl⟩ := List.isPrefixOf_iff_prefix.1 h
    simp
  · next h =>
    simp only [reduceCtorEq, false_iff]
    rintro rfl
    exact h (List.isPrefixOf_iff_prefix.2 ( List.prefix_append front rest))

/-- The inside of the placeholder at the beginning of a text, and what follows it. -/
def placeholderAt? (kind : Kind) (text : Text) : Option (Text × Text) := do
  let body ← dropFront? kind.opening text
  let rest ← dropFront? closing (body.dropWhile isInner)
  if body.takeWhile isInner = [] then none else some (body.takeWhile isInner, rest)

theorem placeholderAt?_text {kind : Kind} {text inner rest : Text}
    (h : placeholderAt? kind text = some (inner, rest)) :
    text = placeholderText kind inner ++ rest := by
  simp only [placeholderAt?, Option.bind_eq_bind, Option.bind_eq_some_iff] at h
  obtain ⟨body, hBody, tail, hTail, h⟩ := h
  split at h
  · cases h
  · simp only [Option.some.injEq, Prod.mk.injEq] at h
    obtain ⟨rfl, rfl⟩ := h
    rw [dropFront?_eq_some] at hBody hTail
    rw [hBody, placeholderText, List.append_assoc, List.append_assoc, ← hTail,
      List.takeWhile_append_dropWhile]

theorem placeholderAt?_length {kind : Kind} {text inner rest : Text}
    (h : placeholderAt? kind text = some (inner, rest)) : rest.length < text.length := by
  rw [placeholderAt?_text h]
  simp only [placeholderText, closing, List.length_append, List.length_cons]
  omega

def segments (kind : Kind) (text : Text) : List Segment :=
  match _read : placeholderAt? kind text with
  | some (inner, rest) => .placeholder inner :: segments kind rest
  | none =>
    match text with
    | [] => []
    | c :: rest => .literal c :: segments kind rest
termination_by text.length
decreasing_by
  · exact placeholderAt?_length _read
  · simp

theorem concat_segments (kind : Kind) (text : Text) :
    (segments kind text).flatMap (Segment.text kind) = text := by
  fun_induction segments kind text with
  | case1 text inner rest h ih =>
    rw [List.flatMap_cons, ih]
    exact (placeholderAt?_text h).symm
  | case2 => rfl
  | case3 c rest _ ih =>
    rw [List.flatMap_cons, ih]
    rfl

def Segment.inner? : Segment → Option Text
  | .literal _ => none
  | .placeholder inner => some inner

/-- The insides of the placeholders of a template, each once, in the order of first appearance. -/
def references (kind : Kind) (template : Text) : List Text :=
  ((segments kind template).filterMap Segment.inner?).eraseDups

/-- A variable is named by the inside of its placeholder, blanks at the ends aside. -/
def variableName (inner : Text) : Text :=
  Text.trim inner

/-- The path of a shared file below its library. -/
def sharedPath (inner : Text) : Text :=
  Text.trim inner

/-- A file reference as it is shown to a reader. -/
def fileReference (inner : Text) : Text :=
  Text.trim (fileMark ++ inner)

/-- The template with each placeholder replaced, inserted text not being read again. -/
def substitute (kind : Kind) (value? : Text → Option Text) (template : Text) : Text :=
  (segments kind template).flatMap fun segment =>
    match segment with
    | .literal c => [c]
    | .placeholder inner => (value? inner).getD (placeholderText kind inner)

end ImageStaging.Template
