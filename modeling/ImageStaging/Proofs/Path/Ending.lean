import ImageStaging.Proofs.Path.Moves

/-!
# How a path ends

A `.` at the end of a path asks for nothing, but nothing can be made that is called so: a path that
ends like that only ever names a directory that is there. The parent of a path is a first part of
its spelling, and it does not end like that either, as long as it asks for anything.
-/

namespace ImageStaging.Path

variable {base path parent : Path} {front : List PathStep} {last : PathStep}

/-- The last of the pieces that are not empty is a `.`. -/
def EndsInDot (path : Path) : Prop :=
  (path.pieces.filter (· ≠ [])).getLast? = some [dot]

instance (path : Path) : Decidable path.EndsInDot :=
  inferInstanceAs (Decidable (_ = _))

theorem endsInDot_iff : path.EndsInDot ↔ path.steps.getLast? = some .stay := by
  rw [EndsInDot, steps, List.getLast?_map]
  cases (path.pieces.filter (· ≠ [])).getLast? with
  | none => simp
  | some piece =>
    simp only [Option.map_some, Option.some.injEq]
    constructor
    · rintro rfl
      rfl
    · intro isStay
      have notMove : (PathStep.ofPiece piece).isMove = false := by
        rw [isStay]
        rfl
      simpa [PathStep.isMove_ofPiece] using notMove

/-- A path that does not end in a `.` ends with its last move. -/
theorem steps_of_not_endsInDot (proper : ¬ path.EndsInDot) (moves : path.moves = front ++ [last]) :
    ∃ before, path.steps = before ++ [last] ∧ before.filter PathStep.isMove = front := by
  rcases List.eq_nil_or_concat' path.steps with none | ⟨before, step, steps⟩
  · rw [Path.moves, none] at moves
    simp at moves
  · have isMove : step.isMove = true := by
      cases step with
      | stay =>
        refine absurd (endsInDot_iff.2 ?_) proper
        rw [steps, List.getLast?_concat]
      | _ => rfl
    rw [Path.moves, steps, List.filter_append, List.filter_cons_of_pos isMove, List.filter_nil]
      at moves
    obtain ⟨same, isLast⟩ := List.append_inj' moves rfl
    exact ⟨before, by rw [steps, (List.cons.inj isLast).1], same⟩

theorem endsInDot_join (relative : path.isAbsolute = false) (proper : path.steps ≠ []) :
    (base.join path).EndsInDot ↔ path.EndsInDot := by
  rw [endsInDot_iff, endsInDot_iff, steps_join relative, List.getLast?_append_of_ne_nil _ proper]

theorem endsInDot_join_empty : (base.join ⟨[]⟩).EndsInDot ↔ base.EndsInDot := by
  rw [endsInDot_iff, endsInDot_iff, steps_join rfl]
  exact iff_of_eq (congrArg (List.getLast? · = _) (List.append_nil _))

/-! ## The spelling of a parent -/

theorem intercalate_append {front back : List Bytes} (proper : front ≠ []) (further : back ≠ []) :
    [slash].intercalate (front ++ back) =
      [slash].intercalate front ++ slash :: [slash].intercalate back := by
  induction front with
  | nil => exact absurd rfl proper
  | cons piece rest ih =>
    by_cases isLast : rest = []
    · subst isLast
      simp [List.intercalate_cons_of_ne_nil further]
    · rw [List.cons_append, List.intercalate_cons_of_ne_nil (by simp [isLast]), ih isLast,
        List.intercalate_cons_of_ne_nil isLast]
      simp

theorem bytes_of_anchored {anchor : Bytes} {body : List Bytes}
    (split : path.anchored = (anchor, body)) : path.bytes = anchor ++ [slash].intercalate body := by
  obtain ⟨bytes⟩ := path
  cases bytes with
  | nil =>
    obtain ⟨rfl, rfl⟩ : [] = anchor ∧ [] = body := by simpa [anchored] using split
    rfl
  | cons first rest =>
    simp only [anchored] at split
    split at split
    · next isSlash =>
      obtain ⟨rfl, rfl⟩ := Prod.mk.inj split
      rw [List.intercalate_splitOn, isSlash]
      rfl
    · next notSlash =>
      split at split
      · next isDot =>
        obtain ⟨rfl, rfl⟩ := Prod.mk.inj split
        have isFirst : first = dot := by
          rw [pieces, List.splitOn_cons_eq_if_modifyHead] at isDot
          simp only [beq_iff_eq, notSlash, if_false, List.head?_modifyHead, Option.map_eq_some_iff,
            List.cons.injEq] at isDot
          obtain ⟨_, _, same, _⟩ := isDot
          exact same
        rw [List.intercalate_splitOn, isFirst]
        rfl
      · obtain ⟨rfl, rfl⟩ := Prod.mk.inj split
        exact (List.intercalate_splitOn slash).symm

/-- A parent is spelled with the first of the pieces, of which the last is proper. -/
theorem parent?_spelling (found : path.parent? = some parent) :
    parent.bytes = [] ∨ ∃ anchor kept dropped, parent.bytes = anchor ++ [slash].intercalate kept ∧
      path.bytes = anchor ++ [slash].intercalate (kept ++ dropped) ∧
      Anchors anchor kept path.isAbsolute ∧ (∀ piece ∈ kept, slash ∉ piece) ∧
      ∀ piece ∈ kept.getLast?, (Component.ofPiece piece).isNone = false := by
  obtain ⟨anchor, body, split⟩ : ∃ anchor body, path.anchored = (anchor, body) :=
    ⟨_, _, rfl⟩
  obtain ⟨-, clean, anchors⟩ := moves_eq_of_anchored split
  obtain ⟨silent, whole, -⟩ := exists_dropSilentEnd body.reverse
  rw [parent?, split] at found
  dsimp only at found
  cases dropped : dropSilentEnd body.reverse with
  | nil =>
    rw [dropped] at found
    dsimp only at found
    split at found
    · obtain rfl := Option.some.inj found
      exact .inl rfl
    · cases found
  | cons last above =>
    rw [dropped] at found whole
    obtain ⟨silentAbove, wholeAbove, -, proper⟩ := exists_dropSilentEnd above
    obtain rfl := Option.some.inj found
    generalize dropSilentEnd above = kept at wholeAbove proper ⊢
    have body_eq : body = kept.reverse ++ (silentAbove.reverse ++ ([last] ++ silent.reverse)) := by
      rw [← List.reverse_reverse body, whole, wholeAbove]
      simp
    refine .inr ⟨anchor, kept.reverse, _, rfl, body_eq ▸ bytes_of_anchored split, ?_, ?_, ?_⟩
    · rw [body_eq] at anchors
      exact anchors.front
    · intro piece member
      exact clean piece (body_eq ▸ List.mem_append_left _ member)
    · intro piece isLast
      rw [List.getLast?_reverse] at isLast
      obtain ⟨rest, rfl⟩ := List.head?_eq_some_iff.1 isLast
      exact proper piece rest rfl

theorem prefix_parent? (found : path.parent? = some parent) : parent.bytes <+: path.bytes := by
  rcases parent?_spelling found with empty | ⟨anchor, kept, dropped, spelled, whole, -⟩
  · rw [empty]
    exact List.nil_prefix
  · rw [spelled, whole]
    refine (List.prefix_append_right_inj anchor).2 ?_
    by_cases empty : kept = []
    · rw [empty]
      exact List.nil_prefix
    · by_cases none : dropped = []
      · have same : kept ++ dropped = kept := by rw [none, List.append_nil]
        exact same.symm ▸ List.prefix_rfl
      · rw [intercalate_append empty none]
        exact List.prefix_append _ _

theorem length_parent?_lt (found : path.parent? = some parent) (proper : path.moves ≠ []) :
    parent.bytes.length < path.bytes.length := by
  have isPrefix := prefix_parent? found
  refine Nat.lt_of_le_of_ne isPrefix.length_le fun same => ?_
  obtain ⟨-, ⟨noMoves, -⟩ | ⟨last, moves⟩⟩ := moves_parent? found
  · exact proper noMoves
  · rw [show parent = path from congrArg Path.mk (isPrefix.eq_of_length same)] at moves
    simpa using congrArg List.length moves

/-- What an anchor and pieces spell has the last of the pieces for its own last. -/
theorem Anchors.pieces_eq {anchor piece : Bytes} {kept : List Bytes} {absolute : Bool}
    (anchors : Anchors anchor (kept ++ [piece]) absolute) (noSlash : slash ∉ piece)
    (proper : piece ≠ []) :
    ∃ more, (⟨anchor ++ [slash].intercalate (kept ++ [piece])⟩ : Path).pieces = more ++ [piece] := by
  have single : (⟨piece⟩ : Path).pieces = [piece] := pieces_of_noSlash noSlash
  by_cases alone : kept = []
  · subst alone
    cases anchors with
    | root =>
      refine ⟨[[]], ?_⟩
      rw [List.nil_append, List.intercalate_singleton, List.singleton_append, pieces_cons_slash,
        single]
      rfl
    | current quiet => exact absurd (quiet piece rfl) proper
    | nothing =>
      refine ⟨[], ?_⟩
      rw [List.nil_append, List.nil_append, List.intercalate_singleton, single]
  · rw [intercalate_append alone (List.cons_ne_nil _ _), List.intercalate_singleton,
      ← List.append_assoc, pieces_append_slash, single]
    exact ⟨_, rfl⟩

theorem not_endsInDot_parent? (found : path.parent? = some parent) (proper : parent.moves ≠ []) :
    ¬ parent.EndsInDot := by
  obtain ⟨bytes⟩ := parent
  rcases parent?_spelling found with empty | ⟨anchor, kept, dropped, spelled, -, anchors, clean, last⟩
  · obtain rfl : bytes = [] := empty
    exact absurd rfl proper
  · obtain rfl : bytes = _ := spelled
    rcases List.eq_nil_or_concat' kept with rfl | ⟨front, piece, rfl⟩
    · exact absurd (anchors.moves_eq clean).2 proper
    · have notSilent := last piece (by simp)
      have notSilent : piece ≠ [] ∧ piece ≠ [dot] := by
        simpa [Component.isNone_ofPiece] using notSilent
      obtain ⟨more, pieces⟩ := anchors.pieces_eq (clean piece (by simp)) notSilent.1
      rw [EndsInDot, pieces, List.filter_append, List.filter_cons_of_pos (by simp [notSilent.1]),
        List.filter_nil, List.getLast?_concat]
      exact fun same => notSilent.2 (Option.some.inj same)

/-! ## Entries below -/

theorem steps_below (path : Path) (names : List Name) :
    (path.below names).steps = path.steps ++ names.map .enter := by
  induction names generalizing path with
  | nil => simp
  | cons name rest ih => rw [below_cons, ih, steps_join (by simp)]; simp

end ImageStaging.Path
