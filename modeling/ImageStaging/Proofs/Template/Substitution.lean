import ImageStaging.Proofs.Template.Pieces
import ImageStaging.Proofs.Template.Resolution

/-!
# Substituting variables

The second pass looks at each different placeholder once and then puts in the values. It comes to
replacing occurrence by occurrence, in one go, and the first occurrence without a value is the one
that ends the pass. Since no value is empty, whatever is put in stands between the pieces of the
template that it parts, so these never make up a placeholder among themselves.
-/

namespace ImageStaging.Template

variable {table : VariableTable} {template text inner : Text} {value : Text → Text}
  {pieces : Pieces} {world : World}

/-- The trimmed inside of a placeholder names a value, and the value is not empty. -/
def HasValue (table : VariableTable) (inner : Text) : Prop :=
  ∃ value, table.get? (Text.trim inner) = some value ∧ value ≠ []

/-- The value for the trimmed inside of a placeholder. -/
def valueOf (table : VariableTable) (inner : Text) : Text :=
  (table.get? (Text.trim inner)).getD []

theorem value?_of_hasValue (has : HasValue table inner) :
    value? table inner = some (valueOf table inner) := by
  obtain ⟨value, isValue, proper⟩ := has
  simp [value?, valueOf, variableName, isValue, proper]

theorem value?_eq_none_iff : value? table inner = none ↔ ¬ HasValue table inner := by
  constructor
  · intro nothing has
    cases nothing.symm.trans (value?_of_hasValue has)
  · intro missing
    refine Option.filter_eq_none_iff.2 fun value isValue => ?_
    have empty : value = [] := by_contra fun proper => missing ⟨value, isValue, proper⟩
    simp [empty]

theorem valueOf_ne_nil (has : HasValue table inner) : valueOf table inner ≠ [] := by
  obtain ⟨value, isValue, proper⟩ := has
  rwa [valueOf, isValue]

/-! ## One pass -/

theorem find?_eraseDups {α : Type} [BEq α] [LawfulBEq α] (p : α → Bool) (items : List α) :
    items.eraseDups.find? p = items.find? p := by
  cases found : items.find? p with
  | none =>
    rw [List.find?_eq_none] at found ⊢
    intro item member
    exact found item (List.mem_eraseDups.1 member)
  | some item =>
    obtain ⟨holds, front, back, rfl, earlier⟩ := List.find?_eq_some_iff_append.1 found
    have absent : item ∉ front := by
      intro member
      have fails := earlier item member
      rw [holds] at fails
      cases fails
    have first : (item :: back).removeAll front = item :: back.removeAll front := by
      simp [List.removeAll, absent]
    rw [List.eraseDups_append, first, List.eraseDups_cons]
    refine List.find?_eq_some_iff_append.2 ⟨holds, _, _, rfl, fun other member => ?_⟩
    exact earlier other (List.mem_eraseDups.1 member)

/-- The first of the different references without a value is the first occurrence without one. -/
theorem find?_references (table : VariableTable) (template : Text) :
    ((references .variable template).find? fun inner => (value? table inner).isNone) =
      (cut .variable template).inners.find? fun inner => (value? table inner).isNone := by
  rw [references_eq, find?_eraseDups]

theorem substituteVariables_eq_ok_iff : substituteVariables table template = .ok text ↔
    (∀ inner ∈ (cut .variable template).inners, HasValue table inner) ∧
      text = (cut .variable template).fill (valueOf table) := by
  have none_iff : ((cut .variable template).inners.find? fun inner =>
      (value? table inner).isNone) = none ↔
        ∀ inner ∈ (cut .variable template).inners, HasValue table inner := by
    simp [List.find?_eq_none, value?_eq_none_iff]
  rw [← none_iff, substituteVariables, find?_references]
  split
  · next inner missing => simp [missing]
  · next valued =>
    have same : substitute .variable (value? table) template =
        (cut .variable template).fill (valueOf table) := by
      rw [substitute_eq]
      refine Pieces.fill_congr fun inner member => ?_
      rw [value?_of_hasValue (none_iff.1 valued inner member), Option.getD_some]
    rw [same, and_iff_right valued, Except.ok.injEq, eq_comm]

/-- The pass ends with the name of the first of the different references that has no value. -/
theorem substituteVariables_eq_error_iff_find? {name : Text} :
    substituteVariables table template = .error name ↔ ∃ inner,
      ((references .variable template).find? fun inner => (value? table inner).isNone) =
        some inner ∧ variableName inner = name := by
  unfold substituteVariables
  cases (references .variable template).find? fun inner => (value? table inner).isNone with
  | none => simp
  | some inner => simp

theorem substituteVariables_eq_error_iff {name : Text} :
    substituteVariables table template = .error name ↔
      ∃ front inner back, (cut .variable template).inners = front ++ inner :: back ∧
        (∀ earlier ∈ front, HasValue table earlier) ∧ ¬ HasValue table inner ∧
          name = Text.trim inner := by
  rw [substituteVariables_eq_error_iff_find?]
  simp only [find?_references, List.find?_eq_some_iff_append, Option.isNone_iff_eq_none,
    value?_eq_none_iff, Bool.not_eq_true', Option.isNone_eq_false_iff, Option.isSome_iff_ne_none,
    ne_eq, not_not]
  constructor
  · rintro ⟨inner, ⟨without, front, back, whole, valued⟩, rfl⟩
    exact ⟨front, inner, back, whole, valued, without, rfl⟩
  · rintro ⟨front, inner, back, whole, valued, without, rfl⟩
    exact ⟨inner, ⟨without, front, back, whole, valued⟩, rfl⟩

theorem resolveVariables_fst (template : Text) (table : VariableTable) (world : World) :
    ((resolveVariables template table).run.run world).1 =
      (substituteVariables table template).mapError .variableReference := by
  rcases (resolveVariables_ends template table).ending with
    ⟨text, after, run, -, isText⟩ | ⟨_, after, run, -, name, missing, rfl⟩
  · rw [run, isText]
    rfl
  · rw [run, missing]
    rfl

/-- The second pass is substitution in one go. The template is cut at its placeholders, in the only
way there is. If each of them has a value, the result is the gaps between them with the values in
their places, for each occurrence the value of its own name; if not, the pass ends with the name
of the first occurrence that has none. -/
theorem resolveVariables_substitutes (template : Text) (table : VariableTable) :
    ∃ pieces, (∀ other, CutsInto .variable template other ↔ other = pieces) ∧ ∀ world : World,
      (∀ text, ((resolveVariables template table).run.run world).1 = .ok text ↔
        (∀ inner ∈ pieces.inners, HasValue table inner) ∧ text = pieces.fill (valueOf table)) ∧
      ∀ fault, ((resolveVariables template table).run.run world).1 = .error fault ↔
        ∃ front inner back, pieces.inners = front ++ inner :: back ∧
          (∀ earlier ∈ front, HasValue table earlier) ∧ ¬ HasValue table inner ∧
            fault = .variableReference (Text.trim inner) := by
  refine ⟨cut .variable template, fun other => cutsInto_iff, fun world => ⟨fun text => ?_,
    fun fault => ?_⟩⟩
  · rw [resolveVariables_fst, ← substituteVariables_eq_ok_iff]
    cases substituteVariables table template <;> simp [Except.mapError]
  · rw [resolveVariables_fst]
    constructor
    · intro failed
      cases result : substituteVariables table template with
      | ok text =>
        rw [result] at failed
        cases failed
      | error name =>
        rw [result] at failed
        obtain ⟨front, inner, back, whole, valued, without, rfl⟩ :=
          substituteVariables_eq_error_iff.1 result
        exact ⟨front, inner, back, whole, valued, without, (Except.error.inj failed).symm⟩
    · rintro ⟨front, inner, back, whole, valued, without, rfl⟩
      rw [substituteVariables_eq_error_iff.2 ⟨front, inner, back, whole, valued, without, rfl⟩]
      rfl

/-! ## What is carried over and what is put in -/

/-- How a character comes to be in a result: it stood in the template or came with a value. -/
inductive Origin
  | carried
  | inserted
  deriving DecidableEq, Repr

/-- The pieces put together again, each character with its origin. -/
def Pieces.trace (value : Text → Text) : Pieces → List (Char × Origin)
  | .last gap => gap.map (·, .carried)
  | .next gap inner rest =>
    gap.map (·, .carried) ++ ((value inner).map (·, .inserted) ++ rest.trace value)

theorem Pieces.fst_trace (value : Text → Text) (pieces : Pieces) :
    (pieces.trace value).map Prod.fst = pieces.fill value := by
  induction pieces with
  | last gap => simp [trace, fill, Function.comp_def]
  | next gap inner rest ih => simp [trace, fill, Function.comp_def, ih]

/-- A part of two lists put together lies in one of them or reaches from one into the other. -/
theorem append_part {α : Type} {front back before part after : List α}
    (whole : front ++ back = before ++ (part ++ after)) :
    (∃ more, front = before ++ (part ++ more)) ∨ (∃ more, back = more ++ (part ++ after)) ∨
      (∃ item ∈ front, item ∈ part) ∧ ∃ item more, back = item :: more ∧ item ∈ part := by
  rcases List.append_eq_append_iff.1 whole with ⟨more, _, isBack⟩ | ⟨more, isFront, rest⟩
  · exact .inr (.inl ⟨more, isBack⟩)
  · rcases List.append_eq_append_iff.1 rest with ⟨beyond, isMore, _⟩ | ⟨beyond, isPart, isBack⟩
    · exact .inl ⟨beyond, by rw [isFront, isMore]⟩
    · cases more with
      | nil => exact .inr (.inl ⟨[], by rw [isBack, isPart]; rfl⟩)
      | cons first more =>
        cases beyond with
        | nil => exact .inl ⟨[], by rw [isFront, isPart, List.append_nil, List.append_nil]⟩
        | cons item beyond =>
          exact .inr (.inr ⟨⟨first, by simp [isFront], by simp [isPart]⟩, item, beyond ++ after,
            isBack, by simp [isPart]⟩)

theorem Clear.not_part {kind : Kind} {gap rest : Text} {origin : Origin}
    {before part after : List (Char × Origin)} (clear : Clear kind gap rest)
    (whole : gap.map (·, origin) = before ++ (part ++ after)) (proper : Proper inner) :
    part.map Prod.fst ≠ placeholderText kind inner := by
  intro reads
  have isGap : gap = before.map Prod.fst ++ (placeholderText kind inner ++ after.map Prod.fst) := by
    have texts := congrArg (List.map Prod.fst) whole
    simpa [Function.comp_def, reads] using texts
  refine clear _ _ isGap ?_ ⟨inner, after.map Prod.fst ++ rest, proper, List.append_assoc _ _ _⟩
  simp [placeholderText, closing]

/-- A part of a result that reads as a placeholder has a character that was put in, provided that
something is put in for each placeholder: what lies in one gap is clear of placeholders, and two
gaps are parted. -/
theorem Pieces.Leftmost.exists_inserted {kind : Kind} (leftmost : pieces.Leftmost kind)
    (filled : ∀ inner ∈ pieces.inners, value inner ≠ []) {before part after : List (Char × Origin)}
    (whole : pieces.trace value = before ++ (part ++ after)) (proper : Proper inner)
    (reads : part.map Prod.fst = placeholderText kind inner) :
    ∃ c, (c, Origin.inserted) ∈ part := by
  have of_mem : ∀ {text : Text} {item}, item ∈ text.map (·, Origin.inserted) → item ∈ part →
      ∃ c, (c, Origin.inserted) ∈ part := by
    intro text item inText inPart
    obtain ⟨c, _, rfl⟩ := List.mem_map.1 inText
    exact ⟨c, inPart⟩
  induction pieces generalizing before with
  | last gap => exact absurd reads (Clear.not_part leftmost whole proper)
  | next gap replaced rest ih =>
    obtain ⟨clear, -, further⟩ := leftmost
    rcases append_part whole with ⟨more, inGap⟩ | ⟨more, behind⟩ | ⟨-, item, more, isBehind, inPart⟩
    · exact absurd reads (clear.not_part inGap proper)
    · rcases append_part behind with ⟨more, inValue⟩ | ⟨more, inRest⟩ | ⟨⟨item, inValue, inPart⟩, -⟩
      · cases part with
        | nil =>
          cases kind <;> cases reads
        | cons item part =>
          have inText : item ∈ (value replaced).map (·, Origin.inserted) := by
            rw [inValue]
            simp
          exact of_mem inText List.mem_cons_self
      · exact ih further (fun other member => filled other (List.mem_cons_of_mem _ member)) inRest
      · exact of_mem inValue inPart
    · obtain ⟨c, text, isValue⟩ :=
        List.exists_cons_of_ne_nil (filled replaced List.mem_cons_self)
      rw [isValue] at isBehind
      obtain ⟨rfl, -⟩ := List.cons.inj isBehind
      exact ⟨c, inPart⟩

/-- The second pass leaves no placeholder of the template behind. Wherever its result reads as a
placeholder, one of the characters came with a value: the text of the template alone makes up none,
be it from one gap or from several. -/
theorem resolveVariables_leaves_none {after : World}
    (resolves : (resolveVariables template table).run.run world = (.ok text, after)) :
    ∃ pieces, CutsInto .variable template pieces ∧
      (pieces.trace (valueOf table)).map Prod.fst = text ∧
        ∀ front inner back, text = front ++ placeholderText .variable inner ++ back →
          Proper inner → ∃ i c, i < (placeholderText .variable inner).length ∧
            (pieces.trace (valueOf table))[front.length + i]? = some (c, .inserted) := by
  have result : substituteVariables table template = .ok text :=
    ((resolveVariables_ends template table).of_ok resolves).2
  obtain ⟨valued, rfl⟩ := substituteVariables_eq_ok_iff.1 result
  have cuts := cutsInto_cut .variable template
  refine ⟨_, cuts, Pieces.fst_trace _ _, fun front inner back whole proper => ?_⟩
  rw [← Pieces.fst_trace, List.append_assoc] at whole
  obtain ⟨before, behind, isTrace, rfl, isBehind⟩ := List.map_eq_append_iff.1 whole
  obtain ⟨part, rest, rfl, reads, -⟩ := List.map_eq_append_iff.1 isBehind
  obtain ⟨c, member⟩ := cuts.leftmost.exists_inserted
    (fun inner member => valueOf_ne_nil (valued inner member)) isTrace proper reads
  obtain ⟨i, few, isAt⟩ := List.mem_iff_getElem.1 member
  refine ⟨i, c, by rwa [← reads, List.length_map], ?_⟩
  rw [isTrace, List.length_map, List.getElem?_append_right (Nat.le_add_right _ _),
    Nat.add_sub_cancel_left, List.getElem?_append_left few, List.getElem?_eq_getElem few, isAt]

/-- A value of two percent signs makes a placeholder with what follows it in the template. The two
signs that it begins with are those of the value. -/
theorem resolveVariables_leaves_none_overlap :
    (substituteVariables (.ofList [("A".toList, "%%".toList)]) "%%A%%B%%".toList).toOption =
        some "%%B%%".toList ∧
      ∃ pieces, CutsInto .variable "%%A%%B%%".toList pieces ∧
        ∃ i c, i < 5 ∧ (pieces.trace (valueOf (.ofList [("A".toList, "%%".toList)])))[i]? =
          some (c, .inserted) := by
  refine ⟨by decide +kernel, ?_⟩
  obtain ⟨pieces, cuts, -, occurrences⟩ := resolveVariables_leaves_none
    (Action.run_eq_of_toOption (by decide +kernel) :
      (resolveVariables "%%A%%B%%".toList (.ofList [("A".toList, "%%".toList)])).run.run
        { files := .empty } = (.ok "%%B%%".toList, _))
  obtain ⟨i, c, few, isAt⟩ := occurrences [] "B".toList [] (by decide) (by decide)
  exact ⟨pieces, cuts, i, c, few, by simpa using isAt⟩

end ImageStaging.Template
