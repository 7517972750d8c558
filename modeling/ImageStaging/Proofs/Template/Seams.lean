import ImageStaging.Proofs.Template.Passes

/-!
# Where the second pass reads paths

The text of the first pass is read once more, its paths being literal text by then. A path is read
as part of a reference only between marks that were literal text before, directly in front of it
and next behind it.
-/

namespace ImageStaging.Template

variable {text inner rest more : Text}

/-- No file reference among the segments stands for an empty path. -/
def PathsProper (segments : List Segment) : Prop :=
  ∀ inner shared, .placeholder inner ∈ segments → fileInner? inner = some shared →
    sharedPath shared ≠ []

theorem PathsProper.tail {segment : Segment} {segments : List Segment}
    (paths : PathsProper (segment :: segments)) : PathsProper segments :=
  fun inner shared member => paths inner shared (List.mem_cons_of_mem _ member)

theorem spelled_variable (isVariable : fileInner? inner = none) (segments : List Segment) :
    spelled (.placeholder inner :: segments) = .placeholder inner :: spelled segments := by
  rw [spelled, List.flatMap_cons, Segment.spelled, isVariable]
  rfl

theorem spelled_file {shared : Text} (isFile : fileInner? inner = some shared)
    (segments : List Segment) : spelled (.placeholder inner :: segments) =
      (sharedPath shared).map .literal ++ spelled segments := by
  rw [spelled, List.flatMap_cons, Segment.spelled, isFile]
  rfl

theorem textOf_spelled_literal (c : Char) (segments : List Segment) :
    textOf (spelled (.literal c :: segments)) = c :: textOf (spelled segments) := rfl

theorem textOf_spelled_variable (isVariable : fileInner? inner = none) (segments : List Segment) :
    textOf (spelled (.placeholder inner :: segments)) =
      placeholderText .variable inner ++ textOf (spelled segments) := by
  rw [spelled_variable isVariable]
  rfl

theorem textOf_spelled_file {shared : Text} (isFile : fileInner? inner = some shared)
    (segments : List Segment) :
    textOf (spelled (.placeholder inner :: segments)) =
      sharedPath shared ++ textOf (spelled segments) := by
  rw [spelled_file isFile, textOf_append, textOf_literals]

theorem isInner_of_fileInner? {shared : Text} (clean : ∀ c ∈ inner, isInner c = true)
    (isFile : fileInner? inner = some shared) : ∀ c ∈ sharedPath shared, isInner c = true := by
  obtain ⟨rfl, _⟩ := fileInner?_eq_some_iff.1 isFile
  exact isInner_of_mem_sharedPath fun c member => clean c (List.mem_append_right _ member)

/-- A percent sign at the front of the new text stands at the front of the old one. -/
theorem front_of_spelled (front : textOf (spelled (segments .variable text)) = percent :: more) :
    ∃ tail, text = percent :: tail := by
  induction text using scan_induction .variable with
  | nil =>
    rw [segments_nil] at front
    cases front
  | literal c rest nothing _ =>
    rw [segments_of_literal nothing, textOf_spelled_literal] at front
    rw [(List.cons.inj front).1]
    exact ⟨rest, rfl⟩
  | placeholder inner rest _ _ _ => exact ⟨_, placeholderText_append inner rest⟩

/-- Marks that end a run of other characters in the new text ended one in the old text. -/
theorem closing_of_spelled (clean : ∀ c ∈ inner, isInner c = true)
    (ends : textOf (spelled (segments .variable text)) = inner ++ (closing ++ more)) :
    ∃ tail, text.dropWhile isInner = closing ++ tail := by
  induction text using scan_induction .variable generalizing inner with
  | nil =>
    rw [segments_nil] at ends
    simp [spelled, textOf, closing] at ends
  | literal c rest nothing ih =>
    rw [segments_of_literal nothing, textOf_spelled_literal] at ends
    cases inner with
    | nil =>
      obtain ⟨rfl, front⟩ := List.cons.inj ends
      obtain ⟨tail, rfl⟩ := front_of_spelled front
      exact ⟨tail, rfl⟩
    | cons d inner =>
      obtain ⟨rfl, behind⟩ := List.cons.inj ends
      rw [List.dropWhile_cons_of_pos (clean c List.mem_cons_self)]
      exact ih (fun d member => clean d (List.mem_cons_of_mem _ member)) behind
  | placeholder inner rest _ _ _ =>
    rw [placeholderText_append]
    exact ⟨_, rfl⟩

/-- Two marks begin a reference, if other characters follow them and then two more marks. -/
theorem placeholderAt?_of_closing {c : Char} (isInner : isInner c = true)
    (ends : ∃ tail, (c :: text).dropWhile Template.isInner = closing ++ tail) :
    (placeholderAt? .variable (percent :: percent :: c :: text)).isSome := by
  obtain ⟨tail, ends⟩ := ends
  have found : placeholderAt? .variable (percent :: percent :: c :: text) =
      some ((c :: text).takeWhile Template.isInner, tail) := by
    refine placeholderAt?_eq_some_iff.2 ⟨?_, fun d member => List.mem_takeWhile_imp member, ?_⟩
    · rw [List.takeWhile_cons_of_pos isInner]
      simp
    · have whole := List.takeWhile_append_dropWhile (p := Template.isInner) (l := c :: text)
      rw [ends] at whole
      rw [placeholderText, List.append_assoc, List.append_assoc, whole]
      rfl
  rw [found]
  rfl

/-- A single mark in the new text was literal text. -/
theorem placeholderAt?_of_single_mark {d : Char} (isInner : isInner d = true)
    (paths : PathsProper (segments .variable (percent :: text)))
    (single : textOf (spelled (segments .variable (percent :: text))) = percent :: d :: more) :
    placeholderAt? .variable (percent :: text) = none := by
  by_contra present
  obtain ⟨⟨inner, tail⟩, found⟩ := Option.ne_none_iff_exists'.1 present
  obtain ⟨_, clean, _⟩ := placeholderAt?_eq_some_iff.1 found
  rw [segments_of_placeholder found] at single paths
  cases isFile : fileInner? inner with
  | none =>
    rw [textOf_spelled_variable isFile, placeholderText_append] at single
    exact ne_percent_of_isInner isInner (List.cons.inj (List.cons.inj single).2).1.symm
  | some shared =>
    rw [textOf_spelled_file isFile] at single
    obtain ⟨e, path, isPath⟩ := List.exists_cons_of_ne_nil
      (paths inner shared List.mem_cons_self isFile)
    have first := isInner_of_fileInner? clean isFile e (by rw [isPath]; exact List.mem_cons_self)
    rw [isPath] at single
    exact ne_percent_of_isInner first (List.cons.inj single).1

/-- Only at a seam can a character that was literal text begin a reference. -/
theorem placeholderAt?_spelled_of_literal {c : Char}
    (nothing : placeholderAt? .variable (c :: rest) = none)
    (paths : PathsProper (segments .variable rest))
    (unenclosed : Unenclosed (.literal c) (segments .variable rest)) :
    placeholderAt? .variable (c :: textOf (spelled (segments .variable rest))) = none := by
  by_contra present
  obtain ⟨⟨inner, tail⟩, found⟩ := Option.ne_none_iff_exists'.1 present
  obtain ⟨proper, clean, whole⟩ := placeholderAt?_eq_some_iff.1 found
  rw [placeholderText_append] at whole
  obtain ⟨rfl, second⟩ := List.cons.inj whole
  obtain ⟨d, inside, rfl⟩ := List.exists_cons_of_ne_nil proper
  have isInnerFirst := clean d List.mem_cons_self
  obtain ⟨after, rfl⟩ := front_of_spelled second
  -- The second mark was literal text as well: no reference begins with one mark and then `d`.
  have atSecond := placeholderAt?_of_single_mark isInnerFirst paths second
  rw [segments_of_literal atSecond] at second paths unenclosed
  rw [textOf_spelled_literal] at second
  have behind := (List.cons.inj second).2
  cases after with
  | nil =>
    rw [segments_nil] at behind
    cases behind
  | cons e after =>
    cases atThird : placeholderAt? .variable (e :: after) with
    | none =>
      have whole : textOf (spelled (segments .variable (e :: after))) =
          (d :: inside) ++ (closing ++ tail) := behind
      have ends := closing_of_spelled clean whole
      rw [segments_of_literal atThird, textOf_spelled_literal] at behind
      obtain ⟨rfl, _⟩ := List.cons.inj behind
      have begins := placeholderAt?_of_closing isInnerFirst ends
      rw [nothing] at begins
      cases begins
    | some reference =>
      obtain ⟨inner', rest'⟩ := reference
      rw [segments_of_placeholder atThird] at behind unenclosed
      cases isFile : fileInner? inner' with
      | none =>
        rw [textOf_spelled_variable isFile, placeholderText_append] at behind
        exact ne_percent_of_isInner isInnerFirst (List.cons.inj behind).1.symm
      | some shared =>
        have closed := unenclosed inner' shared _ rfl rfl isFile
        rw [textOf_spelled_file isFile] at behind
        rw [behind] at closed
        have opens : placeholderAt? .variable
            (closing ++ (d :: inside ++ percent :: percent :: tail)) = some (d :: inside, tail) :=
          placeholderAt?_eq_some_iff.2 ⟨proper, clean, (placeholderText_append _ _).symm⟩
        cases closed.symm.trans opens

/-- The new text is read as its spelled segments exactly if no path is enclosed. -/
theorem segments_spelled_iff (paths : PathsProper (segments .variable text)) :
    segments .variable (textOf (spelled (segments .variable text))) =
        spelled (segments .variable text) ↔ Everywhere Unenclosed (segments .variable text) := by
  induction text using scan_induction .variable with
  | nil =>
    rw [segments_nil]
    exact ⟨fun _ => everywhere_nil _, fun _ => segments_nil _⟩
  | literal c rest nothing ih =>
    rw [segments_of_literal nothing] at paths ⊢
    rw [everywhere_cons, textOf_spelled_literal]
    have ih := ih paths.tail
    constructor
    · intro same
      cases found : placeholderAt? .variable (c :: textOf (spelled (segments .variable rest))) with
      | some reference =>
        rw [segments_of_placeholder found] at same
        cases (List.cons.inj same).1
      | none =>
        rw [segments_of_literal found] at same
        refine ⟨?_, ih.1 (List.cons.inj same).2⟩
        rintro inner shared after ⟨⟩ isAfter isFile
        rw [isAfter, textOf_spelled_literal, textOf_spelled_file isFile] at found
        exact found
    · rintro ⟨unenclosed, further⟩
      rw [segments_of_literal
        (placeholderAt?_spelled_of_literal nothing paths.tail unenclosed), ih.2 further]
      rfl
  | placeholder inner rest proper clean ih =>
    rw [segments_variable proper clean] at paths ⊢
    have ih := ih paths.tail
    have here : Unenclosed (.placeholder inner) (segments .variable rest) := by
      rintro _ _ _ ⟨⟩
    rw [everywhere_cons, and_iff_right here, ← ih]
    cases isFile : fileInner? inner with
    | none =>
      rw [textOf_spelled_variable isFile, segments_variable proper clean, spelled_variable isFile]
      exact List.cons_inj_right _
    | some shared =>
      rw [textOf_spelled_file isFile, segments_append_plain (isInner_of_fileInner? clean isFile),
        spelled_file isFile]
      exact List.append_right_inj _

end ImageStaging.Template
