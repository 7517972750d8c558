import ImageStaging.Proofs.FileSystem.Planting

/-!
# Work at a place

`Worked` bounds what an action on a path may have done, whether it succeeded or not: the directory
that is worked in is still one, away from the place of the path there are at most new directories,
which lead to it, and nothing that was there is gone.
-/

namespace ImageStaging.FileSystem

/-- Away from a location nothing differs but for directories made above it. -/
def Touched (location : Location) (files other : FileSystem) : Prop :=
  ∀ place, ¬ location <+: place →
    other.get? place = files.get? place ∨
      (place <+: location ∧ files.get? place = none ∧ other.get? place = some .directory)

namespace Touched

variable {location : Location} {files other third : FileSystem}

theorem refl (location : Location) (files : FileSystem) : Touched location files files :=
  fun _ _ => .inl rfl

theorem trans {rest : Location} (first : Touched location files other)
    (second : Touched (location ++ rest) other third) : Touched location files third := by
  intro place outside
  have outsideRest : ¬ location ++ rest <+: place := fun inside =>
    outside ((List.prefix_append _ _).trans inside)
  rcases first place outside with same | ⟨above, nothing, made⟩
  · rcases second place outsideRest with same' | ⟨above', nothing', made'⟩
    · exact .inl (same'.trans same)
    · rcases List.prefix_or_prefix_of_prefix above' (List.prefix_append location rest) with
        above | below
      · exact .inr ⟨above, same ▸ nothing', made'⟩
      · exact absurd below outside
  · rcases second place outsideRest with same' | ⟨_, nothing', _⟩
    · exact .inr ⟨above, nothing, same'.trans made⟩
    · cases made.symm.trans nothing'

theorem widen {rest : Location} (touched : Touched (location ++ rest) files other) :
    Touched location files other := by
  intro place outside
  rcases touched place fun inside => outside ((List.prefix_append _ _).trans inside) with
    same | ⟨above, change⟩
  · exact .inl same
  · rcases List.prefix_or_prefix_of_prefix above (List.prefix_append location rest) with
      above | below
    · exact .inr ⟨above, change⟩
    · exact absurd below outside

/-- Work below one name of a directory does not reach what is below another. -/
theorem sibling {root : Location} {name other' : Name} {rest more : List Name}
    (touched : Touched (root ++ name :: rest) files other) (differ : other' ≠ name) :
    other.get? (root ++ other' :: more) = files.get? (root ++ other' :: more) := by
  have apart : ∀ {first second : Name} {front back : List Name}, first ≠ second →
      ¬ root ++ first :: front <+: root ++ second :: back := fun differ isPrefix =>
    differ (List.cons_prefix_cons.1 ((List.prefix_append_right_inj root).1 isPrefix)).1
  rcases touched _ (apart differ.symm) with same | ⟨above, _⟩
  · exact same
  · exact absurd above (apart differ)

end Touched

theorem Planted.touched {location : Location} {entry : Entry} {files other : FileSystem}
    (planted : Planted location entry files other) : Touched location files other := by
  intro place outside
  by_cases same : place = location
  · exact absurd (same ▸ List.prefix_rfl) outside
  · rw [planted.get?, if_neg same]
    split
    · next above =>
      rcases planted.above place above same with nothing | isDirectory
      · exact .inr ⟨above, nothing, rfl⟩
      · exact .inl isDirectory.symm
    · exact .inl rfl

/-! ## What stays -/

/-- Every entry is still there. -/
structure Retained (files other : FileSystem) : Prop where
  workingDirectory : other.workingDirectory = files.workingDirectory
  get? : ∀ place entry, files.get? place = some entry →
    ∃ later, other.get? place = some later ∧ KeepsKind entry later

namespace Retained

variable {files other third : FileSystem} {location : Location} {entry : Entry}

theorem refl (files : FileSystem) : Retained files files :=
  ⟨rfl, fun _ entry stands => ⟨entry, stands, .inl rfl⟩⟩

theorem trans (first : Retained files other) (second : Retained other third) :
    Retained files third := by
  refine ⟨second.workingDirectory.trans first.workingDirectory, fun place entry stands => ?_⟩
  obtain ⟨later, standsThen, kept⟩ := first.get? place entry stands
  obtain ⟨last, standsLast, keptThen⟩ := second.get? place later standsThen
  exact ⟨last, standsLast, kept.trans keptThen⟩

theorem get?_of_not_file (retained : Retained files other)
    (stands : files.get? location = some entry)
    (notFile : entry.isFile = false) : other.get? location = some entry := by
  obtain ⟨later, standsThen, kept⟩ := retained.get? location entry stands
  rw [standsThen, kept.eq_of_not_file notFile]

theorem of_paved (paved : Paved location files other) : Retained files other := by
  refine ⟨paved.workingDirectory, fun place entry stands => ⟨entry, ?_, .inl rfl⟩⟩
  rcases paved.get? place with same | ⟨-, nothing, -⟩
  · rw [same, stands]
  · cases nothing.symm.trans stands

theorem of_planted (planted : Planted location entry files other)
    (kept : ∀ found, files.get? location = some found → KeepsKind found entry) :
    Retained files other := by
  refine ⟨planted.workingDirectory, fun place found stands => ?_⟩
  rw [planted.get?]
  split
  · next same => exact ⟨entry, rfl, kept found (same ▸ stands)⟩
  · next differ =>
    split
    · next above =>
      refine ⟨.directory, rfl, .inl ?_⟩
      rcases planted.above place above differ with nothing | isDirectory
      · cases nothing.symm.trans stands
      · exact Option.some.inj (isDirectory.symm.trans stands)
    · exact ⟨found, stands, .inl rfl⟩

end Retained

/-! ## Work -/

/-- Work on the files from a state of them, at the place that names spell. -/
structure Worked (start : FileSystem) (base : Path) (root : Location) (names : List Name)
    (files other : FileSystem) : Prop where
  confined : Confined start base root other
  touched : Touched (root ++ names) files other
  retained : Retained files other

variable {start files other third : FileSystem} {base : Path} {root : Location}
  {names rest : List Name} {entry : Entry}

theorem Confined.worked (confined : Confined start base root files) (names : List Name) :
    Worked start base root names files files :=
  ⟨confined, .refl _ _, .refl _⟩

theorem Worked.widen (worked : Worked start base root names files other) :
    Worked start base root [] files other :=
  ⟨worked.confined, by simpa using worked.touched.widen, worked.retained⟩

theorem Worked.trans (first : Worked start base root names files other)
    (second : Worked start base root (names ++ rest) other third) :
    Worked start base root names files third :=
  ⟨second.confined, first.touched.trans (by simpa using second.touched),
    first.retained.trans second.retained⟩

theorem Confined.worked_of_planted (confined : Confined start base root files)
    (planted : Planted (root ++ names) entry files other)
    (proper : names = [] → entry = .directory) (kind : entry = .directory ∨ entry.isFile = true) :
    Worked start base root names files other := by
  refine ⟨confined.planted planted proper kind, planted.touched, .of_planted planted ?_⟩
  intro found stands
  have same := planted.here found stands
  rcases confined.plain names found stands with rfl | isFile
  · exact .inl (same.1 rfl)
  · refine .inr ⟨isFile, kind.resolve_left fun isDirectory => ?_⟩
    cases same.2 isDirectory ▸ isFile

theorem Confined.worked_of_paved (confined : Confined start base root files)
    (paved : Paved (root ++ names) files other) : Worked start base root names files other :=
  ⟨confined.paved paved, fun place _ => paved.get? place, .of_paved paved⟩

end ImageStaging.FileSystem
