import ImageStaging.Proofs.Template.Scanning

/-!
# Templates cut at their placeholders

A template is gaps of text with placeholders between them. `CutsInto` says without a scan which
these are: put together again they give the template, and no placeholder begins inside a gap, so
that each is the leftmost one behind those before it. There is exactly one such cut of a template,
the one that a scan comes to.
-/

namespace ImageStaging.Template

variable {kind : Kind} {text gap inner rest : Text} {c : Char}

/-- What can stand inside a placeholder: one or more characters other than a percent sign. -/
def Proper (inner : Text) : Prop :=
  inner ≠ [] ∧ percent ∉ inner

instance (inner : Text) : Decidable (Proper inner) :=
  inferInstanceAs (Decidable (inner ≠ [] ∧ percent ∉ inner))

/-- A placeholder stands at the front of a text. -/
def Begins (kind : Kind) (text : Text) : Prop :=
  ∃ inner rest, Proper inner ∧ text = placeholderText kind inner ++ rest

/-- No placeholder begins in a gap, the text behind the gap taken into account. -/
def Clear (kind : Kind) (gap rest : Text) : Prop :=
  ∀ front back, gap = front ++ back → back ≠ [] → ¬ Begins kind (back ++ rest)

theorem proper_iff : Proper inner ↔ inner ≠ [] ∧ ∀ c ∈ inner, isInner c = true := by
  refine and_congr_right fun _ => ⟨fun absent c member => ?_, fun clean member => ?_⟩
  · have differ : c ≠ percent := by
      rintro rfl
      exact absent member
    simpa [isInner] using differ
  · cases clean percent member

theorem not_begins_iff : ¬ Begins kind text ↔ placeholderAt? kind text = none := by
  rw [← not_iff_not, not_not, ← ne_eq, Option.ne_none_iff_exists']
  constructor
  · rintro ⟨inner, rest, proper, whole⟩
    obtain ⟨nonempty, clean⟩ := proper_iff.1 proper
    exact ⟨(inner, rest), placeholderAt?_eq_some_iff.2 ⟨nonempty, clean, whole⟩⟩
  · rintro ⟨⟨inner, rest⟩, found⟩
    obtain ⟨nonempty, clean, whole⟩ := placeholderAt?_eq_some_iff.1 found
    exact ⟨inner, rest, proper_iff.2 ⟨nonempty, clean⟩, whole⟩

theorem clear_nil (kind : Kind) (rest : Text) : Clear kind [] rest := by
  intro front back whole proper
  exact absurd (List.append_eq_nil_iff.1 whole.symm).2 proper

theorem clear_cons : Clear kind (c :: gap) rest ↔
    ¬ Begins kind (c :: (gap ++ rest)) ∧ Clear kind gap rest := by
  constructor
  · intro clear
    refine ⟨clear [] (c :: gap) rfl (List.cons_ne_nil c gap), fun front back whole => ?_⟩
    exact clear (c :: front) back (by rw [whole, List.cons_append])
  · rintro ⟨here, further⟩ front back whole proper
    cases front with
    | nil =>
      obtain rfl : c :: gap = back := whole
      exact here
    | cons d front =>
      exact further front back (List.cons.inj whole).2 proper

/-- A clear gap is read character by character. -/
theorem segments_append_clear (clear : Clear kind gap rest) :
    segments kind (gap ++ rest) = gap.map .literal ++ segments kind rest := by
  refine segments_append_literals fun c more isSuffix => not_begins_iff.1 ?_
  obtain ⟨front, whole⟩ := isSuffix
  exact clear front (c :: more) whole.symm (List.cons_ne_nil c more)

/-- Gaps of text with the insides of placeholders between them. -/
inductive Pieces
  | last (gap : Text)
  | next (gap inner : Text) (rest : Pieces)
  deriving DecidableEq, Repr

namespace Pieces

/-- The insides of the placeholders, one for each occurrence. -/
def inners : Pieces → List Text
  | last _ => []
  | next _ inner rest => inner :: rest.inners

/-- The gaps as they are, each placeholder replaced by the text for its inside. -/
def fill (value : Text → Text) : Pieces → Text
  | last gap => gap
  | next gap inner rest => gap ++ (value inner ++ rest.fill value)

theorem fill_congr {value value' : Text → Text} {pieces : Pieces}
    (same : ∀ inner ∈ pieces.inners, value inner = value' inner) :
    pieces.fill value = pieces.fill value' := by
  induction pieces with
  | last gap => rfl
  | next gap inner rest ih =>
    rw [fill, fill, same inner List.mem_cons_self,
      ih fun other member => same other (List.mem_cons_of_mem _ member)]

/-- Every placeholder is one, and none begins in a gap. -/
def Leftmost (kind : Kind) : Pieces → Prop
  | last gap => Clear kind gap []
  | next gap inner rest =>
    Clear kind gap (placeholderText kind inner ++ rest.fill (placeholderText kind)) ∧
      Proper inner ∧ rest.Leftmost kind

/-- More text in front of the first gap. -/
def prepend (front : Text) : Pieces → Pieces
  | last gap => last (front ++ gap)
  | next gap inner rest => next (front ++ gap) inner rest

@[simp] theorem inners_prepend (front : Text) (pieces : Pieces) :
    (pieces.prepend front).inners = pieces.inners := by
  cases pieces <;> rfl

@[simp] theorem fill_prepend (value : Text → Text) (front : Text) (pieces : Pieces) :
    (pieces.prepend front).fill value = front ++ pieces.fill value := by
  cases pieces <;> simp [prepend, fill]

@[simp] theorem prepend_append (front more : Text) (pieces : Pieces) :
    (pieces.prepend more).prepend front = pieces.prepend (front ++ more) := by
  cases pieces <;> simp [prepend]

@[simp] theorem prepend_nil (pieces : Pieces) : pieces.prepend [] = pieces := by
  cases pieces <;> rfl

/-- The pieces that a scan comes to. -/
def ofSegments : List Segment → Pieces
  | [] => last []
  | .literal c :: rest => (ofSegments rest).prepend [c]
  | .placeholder inner :: rest => next [] inner (ofSegments rest)

theorem ofSegments_literals (gap : Text) (rest : List Segment) :
    ofSegments (gap.map .literal ++ rest) = (ofSegments rest).prepend gap := by
  induction gap with
  | nil => exact (prepend_nil _).symm
  | cons c gap ih =>
    rw [List.map_cons, List.cons_append, ofSegments, ih, prepend_append]
    rfl

theorem inners_ofSegments (segments : List Segment) :
    (ofSegments segments).inners = segments.filterMap Segment.inner? := by
  induction segments with
  | nil => rfl
  | cons segment rest ih =>
    cases segment with
    | literal c =>
      rw [ofSegments, inners_prepend, ih]
      rfl
    | placeholder inner =>
      rw [ofSegments, inners, ih]
      rfl

end Pieces

/-- A text in pieces: it is what they make up, and they are cut as far to the left as can be. -/
structure CutsInto (kind : Kind) (text : Text) (pieces : Pieces) : Prop where
  whole : pieces.fill (placeholderText kind) = text
  leftmost : pieces.Leftmost kind

theorem CutsInto.cons {pieces : Pieces} (cuts : CutsInto kind text pieces)
    (nothing : ¬ Begins kind (c :: text)) : CutsInto kind (c :: text) (pieces.prepend [c]) := by
  obtain ⟨rfl, leftmost⟩ := cuts
  refine ⟨Pieces.fill_prepend _ _ _, ?_⟩
  cases pieces with
  | last gap =>
    change Clear kind (c :: gap) []
    rw [clear_cons, List.append_nil]
    exact ⟨nothing, leftmost⟩
  | next gap inner rest => exact ⟨clear_cons.2 ⟨nothing, leftmost.1⟩, leftmost.2⟩

theorem CutsInto.next {pieces : Pieces} (cuts : CutsInto kind text pieces) (proper : Proper inner) :
    CutsInto kind (placeholderText kind inner ++ text) (.next [] inner pieces) :=
  ⟨by rw [Pieces.fill, cuts.whole]; rfl, clear_nil _ _, proper, cuts.leftmost⟩

/-- A text cut where a scan finds its placeholders. -/
def cut (kind : Kind) (text : Text) : Pieces :=
  .ofSegments (segments kind text)

theorem cutsInto_cut (kind : Kind) (text : Text) : CutsInto kind text (cut kind text) := by
  induction text using scan_induction kind with
  | nil =>
    rw [cut, segments_nil]
    exact ⟨rfl, clear_nil kind []⟩
  | literal c rest nothing ih =>
    rw [cut, segments_of_literal nothing]
    exact ih.cons (not_begins_iff.2 nothing)
  | placeholder inner rest nonempty clean ih =>
    rw [cut, segments_of_placeholder (placeholderAt?_eq_some_iff.2 ⟨nonempty, clean, rfl⟩)]
    exact ih.next (proper_iff.2 ⟨nonempty, clean⟩)

theorem Pieces.Leftmost.cut_fill {pieces : Pieces} (leftmost : pieces.Leftmost kind) :
    cut kind (pieces.fill (placeholderText kind)) = pieces := by
  induction pieces with
  | last gap =>
    have read := segments_append_clear leftmost
    rw [List.append_nil, segments_nil] at read
    rw [fill, cut, read, ofSegments_literals]
    simp [ofSegments, prepend]
  | next gap inner rest ih =>
    obtain ⟨clear, proper, further⟩ := leftmost
    obtain ⟨nonempty, clean⟩ := proper_iff.1 proper
    rw [fill, cut, segments_append_clear clear, ofSegments_literals,
      segments_of_placeholder (placeholderAt?_eq_some_iff.2 ⟨nonempty, clean, rfl⟩), ofSegments,
      ← cut, ih further, prepend, List.append_nil]

/-- A text is cut in one way. -/
theorem cutsInto_iff {pieces : Pieces} : CutsInto kind text pieces ↔ pieces = cut kind text := by
  constructor
  · rintro ⟨rfl, leftmost⟩
    exact leftmost.cut_fill.symm
  · rintro rfl
    exact cutsInto_cut kind text

/-- Of a run of percent signs the last two open the placeholder, and the marks that close it open no
other. -/
example : cut .variable "%%%A%%B%%".toList = .next ['%'] ['A'] (.last ['B', '%', '%']) := by
  decide +kernel

theorem references_eq (kind : Kind) (text : Text) :
    references kind text = (cut kind text).inners.eraseDups := by
  rw [references, cut, Pieces.inners_ofSegments]

/-- Substitution puts a text in the place of every placeholder, occurrence by occurrence. -/
theorem substitute_eq (value? : Text → Option Text) (text : Text) :
    substitute kind value? text =
      (cut kind text).fill fun inner => (value? inner).getD (placeholderText kind inner) := by
  rw [substitute, cut]
  induction segments kind text with
  | nil => rfl
  | cons segment rest ih =>
    rw [List.flatMap_cons, ih]
    cases segment with
    | literal c =>
      rw [Pieces.ofSegments, Pieces.fill_prepend]
    | placeholder inner => rfl

end ImageStaging.Template
