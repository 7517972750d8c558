import ImageStaging.Proofs.FileSystem.Tree

/-!
# What a lookup finds, it finds again

Entries may be added and files rewritten, but nothing is taken away and nothing changes its kind.
Then every lookup that came to an entry comes to the same location again, and a name that exists
goes on to exist. A name that was missing may come to exist, be it by a link that leads to what was
added.
-/

namespace ImageStaging.FileSystem

namespace Retained

variable {files other third : FileSystem} {path : Path} {location : Location} {entry : Entry}

/-- Placing an entry where none is, or a file over a file, takes nothing away. -/
theorem place (files : FileSystem) (location : Location) {entry : Entry}
    (kept : ∀ found, files.get? location = some found → KeepsKind found entry) :
    Retained files (files.place location entry) := by
  refine ⟨workingDirectory_place _ _ _, fun place found stands => ?_⟩
  rw [get?_place]
  split
  · next placed =>
    rw [placed.2] at stands
    exact ⟨entry, rfl, kept found stands⟩
  · exact ⟨found, stands, .inl rfl⟩

/-! ## Lookups -/

variable {purpose : Purpose} {wantDirectory : Bool}

theorem descend_present {onLink onLink' : Walk → Path → Except FileFault Found}
    (retained : Retained files other)
    (handsOn : ∀ here ahead target,
      onLink ⟨here, ahead, purpose, wantDirectory⟩ target = .ok (.present location) →
        onLink' ⟨here, ahead, purpose, wantDirectory⟩ target = .ok (.present location))
    {here : Location} {ahead : List PathStep}
    (comes : descend files onLink purpose wantDirectory here ahead = .ok (.present location)) :
    descend other onLink' purpose wantDirectory here ahead = .ok (.present location) := by
  induction ahead generalizing here with
  | nil => exact comes
  | cons step ahead ih =>
    cases step with
    | stay => exact ih comes
    | up => exact ih comes
    | impossible =>
      simp only [descend] at comes
      split at comes <;> cases comes
    | enter name =>
      simp only [descend] at comes ⊢
      split at comes
      · cases comes
      · next allowed =>
        rw [if_neg allowed]
        cases stands : files.get? (here ++ [name]) with
        | none =>
          simp only [stands] at comes
          split at comes <;> cases comes
        | some entry =>
          simp only [stands] at comes
          cases entry with
          | directory =>
            rw [retained.get?_of_not_file stands rfl]
            exact ih comes
          | link target =>
            rw [retained.get?_of_not_file stands rfl]
            dsimp only at comes ⊢
            split at comes
            · next last =>
              rw [if_pos last]
              exact comes
            · next further =>
              rw [if_neg further]
              exact handsOn here ahead target comes
          | fullDevice =>
            rw [retained.get?_of_not_file stands rfl]
            exact comes
          | file content executable =>
            obtain ⟨later, standsThen, kept⟩ := retained.get? _ _ stands
            rw [standsThen]
            cases later with
            | file => exact comes
            | directory => rcases kept with impossible | ⟨_, impossible⟩ <;> cases impossible
            | link => rcases kept with impossible | ⟨_, impossible⟩ <;> cases impossible
            | fullDevice => rcases kept with impossible | ⟨_, impossible⟩ <;> cases impossible

theorem travel_present (retained : Retained files other) {links : Nat} {walk : Walk}
    (comes : travel files links walk = .ok (.present location)) :
    travel other links walk = .ok (.present location) := by
  induction links generalizing walk with
  | zero =>
    refine retained.descend_present ?_ comes
    intro _ _ _ impossible
    cases impossible
  | succ links ih => exact retained.descend_present (fun _ _ _ comes => ih comes) comes

theorem locate (retained : Retained files other)
    (found : files.locate purpose path = .ok location) :
    other.locate purpose path = .ok location := by
  rw [locate_eq_ok_iff] at found ⊢
  have checked := checkPath_of_resolve found
  rw [resolve_eq, checked] at found ⊢
  rw [startOf_congr retained.workingDirectory]
  exact retained.travel_present found

/-- What exists goes on to exist. -/
theorem exists?_true (retained : Retained files other) (holds : files.exists? path = .ok true) :
    other.exists? path = .ok true := by
  obtain ⟨entry, found⟩ := exists?_eq_ok_true_iff.1 holds
  obtain ⟨location, located, _⟩ := leads_of_examine found
  refine exists?_eq_ok_true_iff.2 ⟨(other.get? location).getD .directory, ?_⟩
  rw [examine, retained.locate located]
  rfl

end Retained

/-! ## Where a lookup that follows links can end -/

theorem Walks.nothing_at_absent {files : FileSystem} {strict : Bool} {used : Nat}
    {here directory : Location} {name : Name} {ahead : List PathStep}
    (walk : Walks files strict used here ahead (.absent directory name)) :
    files.get? (directory ++ [name]) = none := by
  generalize ending : Found.absent directory name = found at walk
  induction walk with
  | arrive => cases ending
  | up _ ih => exact ih ending
  | enter _ _ ih => exact ih ending
  | other => cases ending
  | missing nothing =>
    cases ending
    exact nothing
  | link _ _ ih => exact ih ending

/-- A walk that enters something, or begins in a directory, follows every link that it meets. -/
theorem Walks.not_at_link {files : FileSystem} {strict : Bool} {used : Nat}
    {here location : Location}
    {ahead : List PathStep} {target : Path}
    (walk : Walks files strict used here ahead (.present location))
    (grounded : files.get? here = some .directory ∨ ∃ name, .enter name ∈ ahead) :
    files.get? location ≠ some (.link target) := by
  generalize ending : Found.present location = found at walk
  induction walk with
  | arrive =>
    cases ending
    rcases grounded with isDirectory | ⟨name, member⟩
    · simp [isDirectory]
    · cases member
  | up _ ih =>
    refine ih ?_ ending
    rcases grounded with isDirectory | ⟨name, member⟩
    · exact .inl (get?_dropLast_of_directory isDirectory)
    · exact .inr ⟨name, by simpa using member⟩
  | enter isDirectory _ ih => exact ih (.inl isDirectory) ending
  | other stands _ notLink _ =>
    cases ending
    rw [stands]
    exact fun same => notLink target (Option.some.inj same)
  | missing => cases ending
  | @link _ here name _ _ _ stands _ ih =>
    have standsIn : files.get? here = some .directory :=
      get?_append_of_isSome (by rw [stands]; rfl) (List.cons_ne_nil name [])
    refine ih (.inl ?_) ending
    unfold linkStart
    split
    · exact get?_root files
    · exact standsIn

end ImageStaging.FileSystem
