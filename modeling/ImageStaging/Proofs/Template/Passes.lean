import ImageStaging.Proofs.Template.Resolution

/-!
# What the first pass leaves to the second

Both passes scan the same marks, so a reference can begin in the closing marks of another, and a
path can come to stand between marks that belonged to nothing. `Seamless` excludes both. It is what
has to hold for the second pass to find the variables of the template, all of them and no others.
-/

namespace ImageStaging

theorem Text.subset_of_trim (text : Text) : Text.trim text ⊆ text := by
  intro c member
  rw [Text.trim, Text.dropEnd, List.mem_reverse] at member
  have inReverse := (List.dropWhile_sublist _).subset member
  exact (List.dropWhile_sublist _).subset (List.mem_reverse.1 inReverse)

namespace Template

variable {text inner rest : Text}

/-- The text that segments of a scan for variables were read from. -/
def textOf (segments : List Segment) : Text :=
  segments.flatMap (Segment.text .variable)

/-- A file reference among the variables is spelled as its path. -/
def Segment.spelled : Segment → List Segment
  | .literal c => [.literal c]
  | .placeholder inner =>
    match fileInner? inner with
    | some shared => (sharedPath shared).map .literal
    | none => [.placeholder inner]

def spelled (segments : List Segment) : List Segment :=
  segments.flatMap Segment.spelled

/-- What a scan for files makes of a variable or file reference. -/
def Segment.asFile : Segment → List Segment
  | .literal c => [.literal c]
  | .placeholder inner =>
    match fileInner? inner with
    | some shared => [.placeholder shared]
    | none => (placeholderText .variable inner).map .literal

/-- A file reference begins in the closing marks that stand before a text. -/
def BeginsInClosing (rest : Text) : Prop :=
  (placeholderAt? .file (closing ++ rest)).isSome ∨ (placeholderAt? .file (percent :: rest)).isSome

/-- No file reference begins in the closing marks of a variable reference. -/
def Unshared (segment : Segment) (after : List Segment) : Prop :=
  ∀ inner, segment = .placeholder inner → fileInner? inner = none → ¬ BeginsInClosing (textOf after)

/-- No path gets between marks that would make a reference of it. -/
def Unenclosed (segment : Segment) (after : List Segment) : Prop :=
  ∀ inner shared rest, segment = .literal percent →
    after = .literal percent :: .placeholder inner :: rest → fileInner? inner = some shared →
    placeholderAt? .variable (closing ++ (sharedPath shared ++ textOf (spelled rest))) = none

/-- The first pass joins no part of a template to another that makes a difference to the second. -/
structure Seamless (template : Text) : Prop where
  unshared : Everywhere Unshared (segments .variable template)
  unenclosed : Everywhere Unenclosed (segments .variable template)
  stillUnshared : Everywhere Unshared (spelled (segments .variable template))

theorem textOf_segments (text : Text) : textOf (segments .variable text) = text :=
  concat_segments .variable text

@[simp] theorem textOf_append (first second : List Segment) :
    textOf (first ++ second) = textOf first ++ textOf second := by
  simp [textOf]

@[simp] theorem textOf_literals (text : Text) : textOf (text.map .literal) = text := by
  induction text with
  | nil => rfl
  | cons c text ih => exact congrArg _ ih

/-! ## The scan for files -/

theorem placeholderText_append (inner rest : Text) :
    placeholderText .variable inner ++ rest =
      percent :: percent :: (inner ++ percent :: percent :: rest) := by
  simp [placeholderText, Kind.opening, closing]

theorem ne_percent_of_isInner {c : Char} (isInner : isInner c = true) : c ≠ percent := by
  rintro rfl
  cases isInner

/-- The scan for files up to the closing marks of a variable reference. -/
theorem segments_file_up_to_closing (proper : inner ≠ [])
    (clean : ∀ c ∈ inner, isInner c = true) (isVariable : fileInner? inner = none) :
    segments .file (placeholderText .variable inner ++ rest) =
      (percent :: percent :: inner).map .literal ++ segments .file (closing ++ rest) := by
  have found : placeholderAt? .variable (placeholderText .variable inner ++ rest) =
      some (inner, rest) := placeholderAt?_eq_some_iff.2 ⟨proper, clean, rfl⟩
  have first := placeholderAt?_file_of_variable found
  rw [isVariable, Option.map_none] at first
  obtain ⟨d, more, rfl⟩ := List.exists_cons_of_ne_nil proper
  have differ := ne_percent_of_isInner (clean d List.mem_cons_self)
  rw [placeholderText_append] at first ⊢
  have second : placeholderAt? .file (percent :: ((d :: more) ++ percent :: percent :: rest)) =
      none := placeholderAt?_of_second_ne differ
  rw [segments_of_literal first, segments_of_literal second, segments_append_plain clean]
  rfl

theorem segments_file_of_variable (proper : inner ≠ []) (clean : ∀ c ∈ inner, isInner c = true)
    (isVariable : fileInner? inner = none) (unshared : ¬ BeginsInClosing rest) :
    segments .file (placeholderText .variable inner ++ rest) =
      (placeholderText .variable inner).map .literal ++ segments .file rest := by
  obtain ⟨noneWhole, noneSecond⟩ := not_or.1 unshared
  rw [Option.not_isSome_iff_eq_none] at noneWhole noneSecond
  have noneWhole : placeholderAt? .file (percent :: percent :: rest) = none := noneWhole
  rw [segments_file_up_to_closing proper clean isVariable]
  show _ ++ segments .file (percent :: percent :: rest) = _
  rw [segments_of_literal noneWhole, segments_of_literal noneSecond]
  simp [placeholderText, Kind.opening, closing]

theorem segments_file_of_file {shared : Text} (proper : inner ≠ [])
    (clean : ∀ c ∈ inner, isInner c = true) (isFile : fileInner? inner = some shared) :
    segments .file (placeholderText .variable inner ++ rest) =
      .placeholder shared :: segments .file rest := by
  have found : placeholderAt? .variable (placeholderText .variable inner ++ rest) =
      some (inner, rest) := placeholderAt?_eq_some_iff.2 ⟨proper, clean, rfl⟩
  refine segments_of_placeholder ((placeholderAt?_file_of_variable found).trans ?_)
  rw [isFile, Option.map_some]

theorem placeholderAt?_file_of_literal {c : Char}
    (nothing : placeholderAt? .variable (c :: rest) = none) :
    placeholderAt? .file (c :: rest) = none := by
  by_contra some
  obtain ⟨⟨shared, tail⟩, found⟩ := Option.ne_none_iff_exists'.1 some
  cases nothing.symm.trans (placeholderAt?_variable_of_file found)

/-- Where no closing marks are shared the two scans see the same references. -/
theorem segments_file (unshared : Everywhere Unshared (segments .variable text)) :
    segments .file text = (segments .variable text).flatMap Segment.asFile := by
  induction text using scan_induction .variable with
  | nil => rw [segments_nil, segments_nil, List.flatMap_nil]
  | literal c rest nothing ih =>
    rw [segments_of_literal nothing, everywhere_cons] at unshared
    rw [segments_of_literal nothing, segments_of_literal (placeholderAt?_file_of_literal nothing),
      ih unshared.2]
    rfl
  | placeholder inner rest proper clean ih =>
    rw [segments_variable proper clean, everywhere_cons] at unshared
    rw [segments_variable proper clean, List.flatMap_cons, ← ih unshared.2, Segment.asFile]
    cases isFile : fileInner? inner with
    | some shared => exact segments_file_of_file proper clean isFile
    | none =>
      refine segments_file_of_variable proper clean isFile ?_
      rw [← textOf_segments rest]
      exact unshared.1 inner rfl isFile

/-! ## The text of the first pass -/

/-- A segment of the scan for files after the first pass. -/
def Segment.withPath : Segment → Text
  | .literal c => [c]
  | .placeholder shared => sharedPath shared

theorem withPaths_eq (text : Text) :
    withPaths text = (segments .file text).flatMap Segment.withPath := by
  unfold withPaths substitute
  refine congrArg (List.flatMap · _) (funext fun segment => ?_)
  cases segment <;> rfl

theorem withPath_asFile (segment : Segment) :
    segment.asFile.flatMap Segment.withPath = textOf segment.spelled := by
  cases segment with
  | literal c => rfl
  | placeholder inner =>
    rw [Segment.asFile, Segment.spelled]
    cases fileInner? inner with
    | some shared => simp [Segment.withPath]
    | none =>
      rw [List.flatMap_map]
      simp [Segment.withPath, textOf, Segment.text]

theorem withPaths_eq_spelled (unshared : Everywhere Unshared (segments .variable text)) :
    withPaths text = textOf (spelled (segments .variable text)) := by
  rw [withPaths_eq, segments_file unshared, List.flatMap_assoc]
  simp only [withPath_asFile]
  rw [textOf, spelled, List.flatMap_assoc]
  rfl

theorem withPaths_of_literal {c : Char} (nothing : placeholderAt? .file (c :: rest) = none) :
    withPaths (c :: rest) = c :: withPaths rest := by
  rw [withPaths_eq, withPaths_eq, segments_of_literal nothing]
  rfl

theorem isInner_of_mem_sharedPath {shared : Text} (clean : ∀ c ∈ shared, isInner c = true) :
    ∀ c ∈ sharedPath shared, isInner c = true :=
  fun c member => clean c (Text.subset_of_trim shared member)

/-- A text that begins with a reference begins with its path after the first pass. -/
theorem withPaths_ne_of_placeholder {shared : Text}
    (found : placeholderAt? .file text = some (shared, rest)) (proper : sharedPath shared ≠ [])
    (more : Text) : withPaths text ≠ percent :: more := by
  obtain ⟨_, clean, _⟩ := placeholderAt?_eq_some_iff.1 found
  rw [withPaths_eq, segments_of_placeholder found, List.flatMap_cons, Segment.withPath]
  obtain ⟨d, path, isPath⟩ := List.exists_cons_of_ne_nil proper
  have differ := isInner_of_mem_sharedPath clean d (by rw [isPath]; exact List.mem_cons_self)
  rw [isPath]
  intro same
  exact ne_percent_of_isInner differ (List.cons.inj same).1

theorem withPaths_of_variable (proper : inner ≠ []) (clean : ∀ c ∈ inner, isInner c = true)
    (isVariable : fileInner? inner = none) :
    withPaths (placeholderText .variable inner ++ rest) =
      (percent :: percent :: inner) ++ withPaths (closing ++ rest) := by
  rw [withPaths_eq, withPaths_eq, segments_file_up_to_closing proper clean isVariable,
    List.flatMap_append, List.flatMap_map]
  simp [Segment.withPath]

theorem textOf_placeholder (inner : Text) :
    textOf [.placeholder inner] = (percent :: percent :: inner) ++ closing := by
  simp [textOf, Segment.text, placeholderText, Kind.opening]

/-- Closing marks that stay where they are have no part in a file reference. -/
theorem unshared_of_closing {more : Text}
    (paths : ∀ shared, .placeholder shared ∈ segments .file (closing ++ rest) →
      sharedPath shared ≠ [])
    (same : withPaths (closing ++ rest) = closing ++ more) :
    ¬ BeginsInClosing rest ∧
      (∀ shared, .placeholder shared ∈ segments .file rest → sharedPath shared ≠ []) ∧
      withPaths rest = more := by
  have noneWhole : placeholderAt? .file (percent :: percent :: rest) = none := by
    by_contra some
    obtain ⟨⟨shared, tail⟩, found⟩ := Option.ne_none_iff_exists'.1 some
    refine withPaths_ne_of_placeholder found (paths shared ?_) (percent :: more) same
    show _ ∈ segments .file (percent :: percent :: rest)
    rw [segments_of_placeholder found]
    exact List.mem_cons_self
  have paths : ∀ shared, .placeholder shared ∈ segments .file (percent :: rest) →
      sharedPath shared ≠ [] := by
    intro shared member
    refine paths shared ?_
    show _ ∈ segments .file (percent :: percent :: rest)
    rw [segments_of_literal noneWhole]
    exact List.mem_cons_of_mem _ member
  have same : withPaths (percent :: rest) = percent :: more := by
    have whole : withPaths (percent :: percent :: rest) = percent :: percent :: more := same
    rw [withPaths_of_literal noneWhole] at whole
    exact (List.cons.inj whole).2
  have noneSecond : placeholderAt? .file (percent :: rest) = none := by
    by_contra some
    obtain ⟨⟨shared, tail⟩, found⟩ := Option.ne_none_iff_exists'.1 some
    refine withPaths_ne_of_placeholder found (paths shared ?_) more same
    rw [segments_of_placeholder found]
    exact List.mem_cons_self
  refine ⟨?_, ?_, ?_⟩
  · rintro (begins | begins)
    · have begins : (placeholderAt? .file (percent :: percent :: rest)).isSome := begins
      rw [noneWhole] at begins
      cases begins
    · rw [noneSecond] at begins
      cases begins
  · intro shared member
    refine paths shared ?_
    rw [segments_of_literal noneSecond]
    exact List.mem_cons_of_mem _ member
  · rw [withPaths_of_literal noneSecond] at same
    exact (List.cons.inj same).2

theorem unshared_of_withPaths_eq
    (paths : ∀ shared, .placeholder shared ∈ segments .file text → sharedPath shared ≠ [])
    (same : withPaths text = textOf (spelled (segments .variable text))) :
    Everywhere Unshared (segments .variable text) := by
  induction text using scan_induction .variable with
  | nil =>
    rw [segments_nil]
    exact everywhere_nil _
  | literal c rest nothing ih =>
    have nothingForFile := placeholderAt?_file_of_literal nothing
    rw [segments_of_literal nothingForFile] at paths
    rw [withPaths_of_literal nothingForFile, segments_of_literal nothing] at same
    rw [segments_of_literal nothing, everywhere_cons]
    refine ⟨?_, ih ?_ (List.cons.inj same).2⟩
    · rintro _ ⟨⟩
    · exact fun shared member => paths shared (List.mem_cons_of_mem _ member)
  | placeholder inner rest proper clean ih =>
    rw [segments_variable proper clean, spelled, List.flatMap_cons, Segment.spelled] at same
    rw [segments_variable proper clean, everywhere_cons]
    cases isFile : fileInner? inner with
    | some shared =>
      rw [segments_file_of_file proper clean isFile] at paths
      rw [withPaths_eq, segments_file_of_file proper clean isFile, List.flatMap_cons,
        isFile] at same
      simp only [Segment.withPath, textOf_append, textOf_literals] at same
      refine ⟨?_, ih ?_ ?_⟩
      · rintro _ ⟨⟩ isVariable
        cases isFile.symm.trans isVariable
      · exact fun shared member => paths shared (List.mem_cons_of_mem _ member)
      · rw [withPaths_eq]
        exact List.append_cancel_left same
    | none =>
      have upTo : segments .file (placeholderText .variable inner ++ rest) =
          (percent :: percent :: inner).map .literal ++ segments .file (closing ++ rest) :=
        segments_file_up_to_closing proper clean isFile
      rw [upTo] at paths
      rw [withPaths_of_variable proper clean isFile, isFile, textOf_append, textOf_placeholder,
        List.append_assoc] at same
      have behind := List.append_cancel_left same
      have paths : ∀ shared, .placeholder shared ∈ segments .file (closing ++ rest) →
          sharedPath shared ≠ [] := fun shared member =>
        paths shared (List.mem_append_right _ member)
      obtain ⟨unshared, paths, sameRest⟩ := unshared_of_closing paths behind
      refine ⟨?_, ih paths sameRest⟩
      rintro _ ⟨⟩ _
      rw [textOf_segments]
      exact unshared

end Template

end ImageStaging
