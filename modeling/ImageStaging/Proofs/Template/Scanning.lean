import Mathlib.Data.List.TakeWhile
import ImageStaging.Template.Placeholder

/-!
# Scanning for placeholders

A placeholder is recognized by its text alone, so what a scan does at one place depends on the text
from there on. The scans for the two kinds of placeholders are compared segment by segment: a file
reference is a variable reference whose inside begins with the mark of shared files.
-/

namespace ImageStaging.Template

variable {kind : Kind} {text inner rest : Text} {c : Char}

theorem placeholderAt?_eq_some_iff : placeholderAt? kind text = some (inner, rest) ↔
    inner ≠ [] ∧ (∀ c ∈ inner, isInner c = true) ∧ text = placeholderText kind inner ++ rest := by
  constructor
  · intro found
    have whole := placeholderAt?_text found
    simp only [placeholderAt?, Option.bind_eq_bind, Option.bind_eq_some_iff] at found
    obtain ⟨body, _, tail, _, found⟩ := found
    split at found
    · cases found
    · next proper =>
      obtain ⟨rfl, rfl⟩ := Prod.mk.inj (Option.some.inj found)
      exact ⟨proper, fun c member => List.mem_takeWhile_imp member, whole⟩
  · rintro ⟨proper, clean, rfl⟩
    have body : dropFront? kind.opening (placeholderText kind inner ++ rest) =
        some (inner ++ (closing ++ rest)) := by
      rw [dropFront?_eq_some, placeholderText, List.append_assoc, List.append_assoc]
    have inside : (inner ++ (closing ++ rest)).takeWhile isInner = inner := by
      rw [List.takeWhile_append_of_pos clean]
      simp [closing, isInner]
    have behind : (inner ++ (closing ++ rest)).dropWhile isInner = closing ++ rest := by
      rw [List.dropWhile_append_of_pos clean]
      simp [closing, isInner]
    simp only [placeholderAt?, body, Option.bind_eq_bind, Option.bind_some, inside, behind]
    simp [dropFront?_eq_some.2, proper]

theorem placeholderAt?_of_ne (differ : c ≠ percent) : placeholderAt? kind (c :: rest) = none := by
  by_contra some
  obtain ⟨⟨inner, tail⟩, found⟩ := Option.ne_none_iff_exists'.1 some
  obtain ⟨_, _, whole⟩ := placeholderAt?_eq_some_iff.1 found
  cases kind <;> exact differ (List.cons.inj whole).1

theorem placeholderAt?_of_second_ne {d : Char} (differ : d ≠ percent) :
    placeholderAt? kind (c :: d :: rest) = none := by
  by_contra some
  obtain ⟨⟨inner, tail⟩, found⟩ := Option.ne_none_iff_exists'.1 some
  obtain ⟨_, _, whole⟩ := placeholderAt?_eq_some_iff.1 found
  cases kind <;> exact differ (List.cons.inj (List.cons.inj whole).2).1

/-! ## Segments -/

theorem segments_nil (kind : Kind) : segments kind [] = [] := by
  unfold segments
  cases kind <;> rfl

theorem segments_of_placeholder (found : placeholderAt? kind text = some (inner, rest)) :
    segments kind text = .placeholder inner :: segments kind rest := by
  rw [segments]
  split
  · next found' =>
    obtain ⟨rfl, rfl⟩ := Prod.mk.inj (Option.some.inj (found.symm.trans found'))
    rfl
  · next none =>
    cases found.symm.trans none

theorem segments_of_literal (nothing : placeholderAt? kind (c :: rest) = none) :
    segments kind (c :: rest) = .literal c :: segments kind rest := by
  rw [segments]
  split
  · next found => cases nothing.symm.trans found
  · rfl

/-- A text is gone through as a scan reads it. -/
theorem scan_induction (kind : Kind) {motive : Text → Prop} (nil : motive [])
    (literal : ∀ c rest, placeholderAt? kind (c :: rest) = none → motive rest → motive (c :: rest))
    (placeholder : ∀ inner rest, inner ≠ [] → (∀ c ∈ inner, isInner c = true) → motive rest →
      motive (placeholderText kind inner ++ rest)) (text : Text) : motive text := by
  fun_induction segments kind text with
  | case1 text inner rest found ih =>
    obtain ⟨proper, clean, rfl⟩ := placeholderAt?_eq_some_iff.1 found
    exact placeholder inner rest proper clean ih
  | case2 => exact nil
  | case3 c rest nothing ih => exact literal c rest nothing ih

/-- Text in which no placeholder begins is read as it is. -/
theorem segments_append_literals {front : Text}
    (nothing : ∀ c more, c :: more <:+ front → placeholderAt? kind (c :: (more ++ rest)) = none) :
    segments kind (front ++ rest) = front.map .literal ++ segments kind rest := by
  induction front with
  | nil => rfl
  | cons c front ih =>
    rw [List.cons_append, segments_of_literal (nothing c front List.suffix_rfl),
      ih fun c more isSuffix => nothing c more (isSuffix.trans (List.suffix_cons _ _))]
    rfl

theorem segments_append_plain {front : Text} (plain : ∀ c ∈ front, isInner c = true) :
    segments kind (front ++ rest) = front.map .literal ++ segments kind rest := by
  refine segments_append_literals fun c more isSuffix => placeholderAt?_of_ne ?_
  rintro rfl
  have impossible := plain percent (isSuffix.subset List.mem_cons_self)
  cases impossible

theorem segments_variable {inner : Text} (proper : inner ≠ [])
    (clean : ∀ c ∈ inner, isInner c = true) :
    segments .variable (placeholderText .variable inner ++ rest) =
      .placeholder inner :: segments .variable rest :=
  segments_of_placeholder (placeholderAt?_eq_some_iff.2 ⟨proper, clean, rfl⟩)

/-! ## The two kinds -/

/-- The inside of a variable reference as that of a file reference, if it is one as well. -/
def fileInner? (inner : Text) : Option Text :=
  (dropFront? fileMark inner).filter (· ≠ [])

theorem fileInner?_eq_some_iff {shared : Text} :
    fileInner? inner = some shared ↔ inner = fileMark ++ shared ∧ shared ≠ [] := by
  simp [fileInner?, Option.filter_eq_some_iff, dropFront?_eq_some]

theorem placeholderText_file (shared : Text) :
    placeholderText .file shared = placeholderText .variable (fileMark ++ shared) := rfl

theorem placeholderAt?_variable_of_file {shared : Text}
    (found : placeholderAt? .file text = some (shared, rest)) :
    placeholderAt? .variable text = some (fileMark ++ shared, rest) := by
  obtain ⟨proper, clean, rfl⟩ := placeholderAt?_eq_some_iff.1 found
  have cleanMark : fileMark.all isInner = true := by decide
  refine placeholderAt?_eq_some_iff.2 ⟨by simp [fileMark], ?_, rfl⟩
  intro c member
  rcases List.mem_append.1 member with inMark | inShared
  · exact List.all_eq_true.1 cleanMark c inMark
  · exact clean c inShared

theorem placeholderAt?_file_of_variable
    (found : placeholderAt? .variable text = some (inner, rest)) :
    placeholderAt? .file text = (fileInner? inner).map fun shared => (shared, rest) := by
  cases isFile : fileInner? inner with
  | some shared =>
    obtain ⟨proper, clean, rfl⟩ := placeholderAt?_eq_some_iff.1 found
    obtain ⟨rfl, nonempty⟩ := fileInner?_eq_some_iff.1 isFile
    exact placeholderAt?_eq_some_iff.2
      ⟨nonempty, fun c member => clean c (List.mem_append_right _ member), rfl⟩
  | none =>
    by_contra some
    obtain ⟨⟨shared, tail⟩, found'⟩ := Option.ne_none_iff_exists'.1 some
    have same := found.symm.trans (placeholderAt?_variable_of_file found')
    have nonempty := (placeholderAt?_eq_some_iff.1 found').1
    have isFile' := fileInner?_eq_some_iff.2 ⟨(Prod.mk.inj (Option.some.inj same)).1, nonempty⟩
    cases isFile.symm.trans isFile'

theorem mem_references {inner : Text} :
    inner ∈ references kind text ↔ .placeholder inner ∈ segments kind text := by
  rw [references, List.mem_eraseDups, List.mem_filterMap]
  constructor
  · rintro ⟨segment, member, isInner⟩
    cases segment with
    | literal c => cases isInner
    | placeholder other => rwa [← Option.some.inj isInner]
  · intro member
    exact ⟨_, member, rfl⟩

/-! ## What stands behind a segment -/

/-- Something holds of every segment and the segments behind it. -/
def Everywhere (holds : Segment → List Segment → Prop) (segments : List Segment) : Prop :=
  ∀ before segment after, segments = before ++ segment :: after → holds segment after

theorem everywhere_nil (holds : Segment → List Segment → Prop) : Everywhere holds [] := by
  intro before segment after whole
  simp at whole

theorem everywhere_cons {holds : Segment → List Segment → Prop} {segment : Segment}
    {segments : List Segment} : Everywhere holds (segment :: segments) ↔
      holds segment segments ∧ Everywhere holds segments := by
  constructor
  · intro all
    refine ⟨all [] segment segments rfl, fun before other after whole => ?_⟩
    exact all (segment :: before) other after (by rw [whole, List.cons_append])
  · rintro ⟨here, further⟩ before other after whole
    cases before with
    | nil =>
      obtain ⟨rfl, rfl⟩ := List.cons.inj whole
      exact here
    | cons first before =>
      obtain ⟨_, rfl⟩ := List.cons.inj whole
      exact further before other after rfl

end ImageStaging.Template
