import Mathlib.Data.Set.Finite.Basic
import ImageStaging.Proofs.FileSystem.Missing

/-!
# Trees with their links followed

Below a directory lies a tree in which every link stands for what it leads to. `Follows` is told
without the bounds on lookups, so that such a tree is finite or not by itself: it is finite only if
no directory of it leads back to one that leads to it.
-/

namespace ImageStaging.FileSystem

variable {files : FileSystem} {source path : Path} {top middle location other : Location}
  {names rest : List Name} {name : Name} {entry : Entry}

/-- Names lead down from a directory to a location, however many links are followed on the way. -/
def Follows (files : FileSystem) (top : Location) (names : List Name) (location : Location) :
    Prop :=
  ∃ links, Walks files false links top (names.map .enter) (.present location)

namespace Follows

theorem nil (files : FileSystem) (top : Location) : files.Follows top [] top := ⟨0, .arrive⟩

theorem unique (one : files.Follows top names location) (again : files.Follows top names other) :
    location = other := by
  obtain ⟨_, walk⟩ := one
  obtain ⟨_, walk'⟩ := again
  exact Found.present.inj (walk.unique walk')

theorem append (first : files.Follows top names middle)
    (isDirectory : files.get? middle = some .directory)
    (second : files.Follows middle rest location) : files.Follows top (names ++ rest) location := by
  obtain ⟨_, walk⟩ := first
  obtain ⟨_, further⟩ := second
  have strictly := walk.strict_of_directory isDirectory
  have whole := strictly.append further
  rw [← List.map_append] at whole
  exact ⟨_, whole⟩

/-- What follows a directory on the way is followed from there. -/
theorem split (first : files.Follows top names middle)
    (isDirectory : files.get? middle = some .directory)
    (whole : files.Follows top (names ++ rest) location) : files.Follows middle rest location := by
  obtain ⟨_, walk⟩ := first
  obtain ⟨_, wholeWalk⟩ := whole
  have strictly := walk.strict_of_directory isDirectory
  rw [List.map_append] at wholeWalk
  obtain ⟨left, -, further⟩ := strictly.split wholeWalk
  exact ⟨left, further⟩

/-- Before each name there is a directory, and the name stands in it. -/
theorem before (whole : files.Follows top (names ++ name :: rest) location) :
    ∃ middle, files.Follows top names middle ∧ files.get? middle = some .directory ∧
      (files.get? (middle ++ [name])).isSome := by
  obtain ⟨_, walk⟩ := whole
  rw [List.map_append] at walk
  obtain ⟨left, -, middle, front, stands⟩ := walk.before rfl
  have stands := stands name rfl
  exact ⟨middle, ⟨left, front.lax⟩, get?_append_of_isSome stands (by simp), stands⟩

theorem stands (follows : files.Follows top names location)
    (isDirectory : files.get? top = some .directory) : ∃ entry, files.get? location = some entry := by
  obtain ⟨_, walk⟩ := follows
  obtain ⟨entry, stands, -⟩ := walk.stands isDirectory
  exact ⟨entry, stands⟩

/-- One name leads to what stands there, unless that is a link. -/
theorem eq_of_not_link (follows : files.Follows middle [name] location)
    (stands : files.get? (middle ++ [name]) = some entry) (notLink : ∀ target, entry ≠ .link target) :
    location = middle ++ [name] := by
  obtain ⟨_, walk⟩ := follows
  cases walk with
  | enter isDirectory rest => exact Found.present.inj rest.nil.2
  | other => rfl
  | link isLink => exact absurd (Option.some.inj (stands.symm.trans isLink)) (notLink _)

theorem of_not_link (stands : files.get? (middle ++ [name]) = some entry)
    (notLink : ∀ target, entry ≠ .link target) :
    files.Follows middle [name] (middle ++ [name]) := by
  by_cases isDirectory : entry = .directory
  · exact ⟨0, .enter (isDirectory ▸ stands) .arrive⟩
  · exact ⟨0, .other stands isDirectory notLink rfl⟩

/-- Below the end of a path a lookup follows. -/
theorem of_locate (found : files.locate .target source = .ok top)
    (isDirectory : files.get? top = some .directory)
    (located : files.locate .target (source.below names) = .ok location) :
    files.Follows top names location := by
  obtain ⟨_, _, walk⟩ := leads_of_locate found
  obtain ⟨_, _, whole⟩ := leads_of_locate located
  rw [Path.startOf_below, Path.moves_below] at whole
  have strictly := walk.strict_of_directory isDirectory
  obtain ⟨left, -, further⟩ := strictly.split whole
  exact ⟨left, further⟩

end Follows

/-! ## Finite trees -/

/-- The tree below a directory is finite with its links followed, and no link in it dangles. -/
structure FiniteTree (files : FileSystem) (top : Location) : Prop where
  finite : {names | ∃ location, files.Follows top names location}.Finite
  whole : ∀ names location name, files.Follows top names location →
    (files.get? (location ++ [name])).isSome → ∃ further, files.Follows top (names ++ [name]) further

namespace FiniteTree

/-- The way round from a directory back to it could be gone again and again. -/
theorem no_return (tree : files.FiniteTree top) (comes : files.Follows top names location)
    (isDirectory : files.get? location = some .directory)
    (returns : files.Follows top (names ++ rest) location) : rest = [] := by
  by_contra proper
  have round := comes.split isDirectory returns
  have rounds : ∀ count : Nat,
      files.Follows top (names ++ (List.replicate count rest).flatten) location := by
    intro count
    induction count with
    | zero => simpa using comes
    | succ count ih =>
      rw [List.replicate_succ', List.flatten_concat, ← List.append_assoc]
      exact ih.append isDirectory round
  have differ : Function.Injective fun count : Nat =>
      names ++ (List.replicate count rest).flatten := by
    intro first second same
    have lengths := congrArg List.length same
    simp only [List.length_append, List.length_flatten, List.map_replicate, List.sum_replicate_nat,
      Nat.add_left_cancel_iff] at lengths
    exact Nat.eq_of_mul_eq_mul_right (List.length_pos_iff.2 proper) lengths
  have infinite : {names | ∃ location, files.Follows top names location}.Infinite :=
    Set.infinite_of_injective_forall_mem differ fun count => ⟨location, rounds count⟩
  exact infinite tree.finite

/-- What stands in a directory of the tree leads on, and if it is no link it is there itself. -/
theorem exists_child (tree : files.FiniteTree top) (follows : files.Follows top names location)
    (stands : (files.get? (location ++ [name])).isSome) :
    ∃ entry further, files.get? (location ++ [name]) = some entry ∧
      files.Follows top (names ++ [name]) further ∧
      ((∀ target, entry ≠ .link target) → files.get? further = some entry) := by
  obtain ⟨entry, isEntry⟩ := Option.isSome_iff_exists.1 stands
  obtain ⟨further, child⟩ := tree.whole names location name follows stands
  refine ⟨entry, further, isEntry, child, fun notLink => ?_⟩
  have isDirectory := get?_append_of_isSome stands (List.cons_ne_nil name [])
  rw [(follows.split isDirectory child).eq_of_not_link isEntry notLink, isEntry]

/-- A tree without links has as many paths as entries. -/
theorem of_plain (isDirectory : files.get? top = some .directory) (plain : files.Plain top) :
    files.FiniteTree top := by
  have ends {names : List Name} {location : Location} (follows : files.Follows top names location) :
      location = top ++ names ∧ (files.get? (top ++ names)).isSome := by
    obtain ⟨_, walk⟩ := follows
    rcases walk.of_plain isDirectory plain with ⟨same, stands⟩ | ⟨_, _, _, impossible, _⟩
    · exact ⟨Found.present.inj same, stands⟩
    · cases impossible
  constructor
  · refine (List.finite_toSet ([] :: files.entries.map fun item => item.1.drop top.length)).subset ?_
    rintro names ⟨location, follows⟩
    obtain ⟨-, stands⟩ := ends follows
    obtain ⟨entry, stands⟩ := Option.isSome_iff_exists.1 stands
    rw [get?, find] at stands
    split at stands
    · next none => simp [(List.append_eq_nil_iff.1 none).2]
    · obtain ⟨front, back, split, -⟩ := List.lookup_eq_some_iff.1 stands
      simp [split]
  · intro names location name follows stands
    obtain ⟨rfl, -⟩ := ends follows
    have above : files.get? (top ++ names) = some .directory := get?_append_of_isSome stands (by simp)
    obtain ⟨entry, stands⟩ := Option.isSome_iff_exists.1 stands
    refine ⟨_, follows.append above (.of_not_link stands ?_)⟩
    rintro target rfl
    rw [List.append_assoc] at stands
    rcases plain _ _ stands with impossible | impossible <;> cases impossible

end FiniteTree

/-! ## The entry at the end of a path -/

/-- Where the end of a path can be followed it can be looked up, and a link is all that can stand
there instead. -/
theorem descend_entry {onLink onLink' : Walk → Path → Except FileFault Found} {wantDirectory : Bool}
    (handsOn : ∀ here ahead target found, onLink ⟨here, ahead, .target, wantDirectory⟩ target =
      .ok found → ∃ found', onLink' ⟨here, ahead, .entry, wantDirectory⟩ target = .ok found' ∧
        (found' = found ∨ ∃ location target, found' = .present location ∧
          files.get? location = some (.link target)))
    {here : Location} {ahead : List PathStep} {found : Found}
    (comes : descend files onLink .target wantDirectory here ahead = .ok found) :
    ∃ found', descend files onLink' .entry wantDirectory here ahead = .ok found' ∧
      (found' = found ∨ ∃ location target, found' = .present location ∧
        files.get? location = some (.link target)) := by
  induction ahead generalizing here with
  | nil => exact ⟨found, comes, .inl rfl⟩
  | cons step ahead ih =>
    cases step with
    | stay => exact ih comes
    | up => exact ih comes
    | impossible =>
      simp only [descend] at comes
      split at comes <;> cases comes
    | enter name =>
      simp only [descend, reduceCtorEq, decide_false, decide_true, Bool.and_false, Bool.and_true,
        Bool.false_and, Bool.false_eq_true, if_false] at comes ⊢
      cases stands : files.get? (here ++ [name]) with
      | none =>
        rw [stands] at comes
        exact ⟨found, comes, .inl rfl⟩
      | some entry =>
        rw [stands] at comes
        cases entry with
        | directory => exact ih comes
        | link target =>
          by_cases isEnd : (ahead.isEmpty && !wantDirectory) = true
          · simp only [isEnd, if_true]
            exact ⟨_, rfl, .inr ⟨_, target, rfl, stands⟩⟩
          · simp only [isEnd, Bool.false_eq_true, if_false]
            exact handsOn here ahead target found comes
        | file content executable => exact ⟨found, comes, .inl rfl⟩
        | fullDevice => exact ⟨found, comes, .inl rfl⟩

theorem travel_entry {links : Nat} {wantDirectory : Bool} {here : Location} {ahead : List PathStep}
    {found : Found} (comes : travel files links ⟨here, ahead, .target, wantDirectory⟩ = .ok found) :
    ∃ found', travel files links ⟨here, ahead, .entry, wantDirectory⟩ = .ok found' ∧
      (found' = found ∨ ∃ location target, found' = .present location ∧
        files.get? location = some (.link target)) := by
  induction links generalizing wantDirectory here ahead found with
  | zero =>
    refine descend_entry ?_ comes
    intro _ _ _ _ impossible
    cases impossible
  | succ links ih => exact descend_entry (fun here ahead target found comes => ih comes) comes

theorem examineLink_of_locate (found : files.locate .target path = .ok location) :
    ∃ entry, files.examineLink path = .ok entry ∧
      ((∃ target, entry = .link target) ∨ files.examine path = .ok entry) := by
  have comes := locate_eq_ok_iff.1 found
  have checked := checkPath_of_resolve comes
  rw [resolve_eq, checked] at comes
  obtain ⟨found', answer, same⟩ := travel_entry comes
  have resolved : files.resolve .entry path = .ok found' := by
    rw [resolve_eq, checked]
    exact answer
  rcases same with rfl | ⟨place, target, rfl, isLink⟩
  · refine ⟨(files.get? location).getD .directory, ?_, .inr ?_⟩
    · rw [examineLink, locate_eq_ok_iff.2 resolved]
      rfl
    · rw [examine, found]
      rfl
  · refine ⟨.link target, ?_, .inl ⟨target, rfl⟩⟩
    rw [examineLink, locate_eq_ok_iff.2 resolved]
    simp only [bind, Except.bind, pure, Except.pure, isLink, Option.getD_some]

end ImageStaging.FileSystem
