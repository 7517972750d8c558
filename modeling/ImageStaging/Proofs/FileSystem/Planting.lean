import ImageStaging.Proofs.FileSystem.LastStep

/-!
# Entries that come to stand somewhere

`Planted` is what making a directory or writing a file does once it has succeeded: the entry
stands, directories lead to it, and nothing else is different. In a confined directory the place is
the one that the names of the path spell.
-/

namespace ImageStaging.FileSystem

/-- An entry has come to stand at a location, with directories above it. -/
structure Planted (location : Location) (entry : Entry) (files other : FileSystem) : Prop where
  workingDirectory : other.workingDirectory = files.workingDirectory
  get? : ∀ place, other.get? place =
    if place = location then some entry
    else if place <+: location then some .directory
    else files.get? place
  above : ∀ place, place <+: location → place ≠ location →
    files.get? place = none ∨ files.get? place = some .directory
  /-- Neither does a file take the place of a directory nor a directory that of a file. -/
  here : ∀ old, files.get? location = some old → (old = .directory ↔ entry = .directory)

namespace Planted

variable {files other third : FileSystem} {location : Location} {entry : Entry}

theorem place (accepts : files.Accepts location)
    (kind : entry = .directory → files.get? location = none) :
    Planted location entry files (files.place location entry) := by
  have above : ∀ place, place <+: location → place ≠ location →
      files.get? place = some .directory := by
    intro place isAbove differ
    have within : place <+: location.dropLast := by
      obtain ⟨back, rfl⟩ := isAbove
      have proper : back ≠ [] := by simpa using differ
      rw [List.dropLast_append_of_ne_nil proper]
      exact List.prefix_append _ _
    by_cases same : place = location.dropLast
    · rw [same, accepts.2.1]
    · exact get?_ancestor within same (by simp [accepts.2.1])
  refine ⟨workingDirectory_place files location entry, ?_, fun place isAbove differ =>
    .inr (above place isAbove differ), ?_⟩
  · intro place
    rw [get?_place]
    by_cases same : place = location
    · rw [if_pos ⟨accepts, same⟩, if_pos same]
    · rw [if_neg fun both => same both.2, if_neg same]
      split
      · next isAbove => exact above place isAbove same
      · rfl
  · intro old stands
    refine ⟨?_, fun isDirectory => ?_⟩
    · rintro rfl
      exact absurd stands accepts.2.2
    · rw [kind isDirectory] at stands
      cases stands

/-- What stands already is as good as planted. -/
theorem of_standing (stands : files.get? location = some entry) :
    Planted location entry files files := by
  have above : ∀ place, place <+: location → place ≠ location →
      files.get? place = some .directory := fun place isAbove differ =>
    get?_ancestor isAbove differ (by rw [stands]; rfl)
  refine ⟨rfl, ?_, fun place isAbove differ => .inr (above place isAbove differ), ?_⟩
  · intro place
    split
    · next same => rw [same, stands]
    · next differ =>
      split
      · next isAbove => exact above place isAbove differ
      · rfl
  · rintro old stands'
    rw [Option.some.inj (stands'.symm.trans stands)]

theorem at_location (planted : Planted location entry files other) :
    other.get? location = some entry := by
  rw [planted.get?, if_pos rfl]

theorem elsewhere (planted : Planted location entry files other) {place : Location}
    (apart : ¬ place <+: location) : other.get? place = files.get? place := by
  have differ : place ≠ location := by
    rintro rfl
    exact apart List.prefix_rfl
  rw [planted.get?, if_neg differ, if_neg apart]

/-- What is planted a second time takes the place of the first. -/
theorem overwritten {entry' : Entry} (first : Planted location entry files other)
    (second : Planted location entry' other third) : Planted location entry' files third := by
  refine ⟨second.workingDirectory.trans first.workingDirectory, ?_, first.above, ?_⟩
  · intro place
    rw [second.get?]
    split
    · rfl
    · next differ =>
      rw [first.get?, if_neg differ]
      split <;> rfl
  · intro old stands
    exact (first.here old stands).trans (second.here entry first.at_location)

theorem trans {rest : Location} (first : Planted location .directory files other)
    (second : Planted (location ++ rest) entry other third) :
    Planted (location ++ rest) entry files third := by
  refine ⟨second.workingDirectory.trans first.workingDirectory, ?_, ?_, ?_⟩
  · intro place
    rw [second.get?]
    split
    · rfl
    · split
      · rfl
      · next notAbove =>
        refine first.elsewhere fun isAbove => ?_
        exact notAbove (isAbove.trans (List.prefix_append _ _))
  · intro place isAbove differ
    by_cases same : place = location
    · rw [same]
      cases old : files.get? location with
      | none => exact .inl rfl
      | some entry => rw [(first.here entry old).2 rfl]; exact .inr rfl
    · by_cases within : place <+: location
      · exact first.above place within same
      · have known := second.above place isAbove differ
        rwa [first.get?, if_neg same, if_neg within] at known
  · intro old stands
    by_cases same : rest = []
    · subst same
      rw [List.append_nil] at stands second
      have kind := first.here old stands
      refine ⟨fun isDirectory => ?_, fun isDirectory => kind.2 rfl⟩
      have between : other.get? location = some .directory := by rw [first.get?, if_pos rfl]
      exact (second.here _ between).1 rfl
    · refine second.here old ?_
      have longer : ¬ location ++ rest <+: location := fun above => same (eq_nil_of_above above)
      rw [first.get?, if_neg (by simpa using same), if_neg longer, stands]

end Planted

/-- Directories may have come to stand at a location and above it. -/
structure Paved (location : Location) (files other : FileSystem) : Prop where
  workingDirectory : other.workingDirectory = files.workingDirectory
  get? : ∀ place, other.get? place = files.get? place ∨
    (place <+: location ∧ files.get? place = none ∧ other.get? place = some .directory)

namespace Paved

variable {files other third : FileSystem} {location : Location}

theorem refl (location : Location) (files : FileSystem) : Paved location files files :=
  ⟨rfl, fun _ => .inl rfl⟩

theorem further (paved : Paved location files other) (rest : Location) :
    Paved (location ++ rest) files other := by
  refine ⟨paved.workingDirectory, fun place => ?_⟩
  rcases paved.get? place with same | ⟨above, change⟩
  · exact .inl same
  · exact .inr ⟨above.trans (List.prefix_append _ _), change⟩

end Paved

theorem Planted.paved {location : Location} {files other : FileSystem}
    (planted : Planted location .directory files other) : Paved location files other := by
  refine ⟨planted.workingDirectory, fun place => ?_⟩
  rw [planted.get?]
  by_cases same : place = location
  · rw [if_pos same, same]
    cases old : files.get? location with
    | none => exact .inr ⟨List.prefix_rfl, rfl, rfl⟩
    | some entry => rw [(planted.here entry old).2 rfl]; exact .inl rfl
  · rw [if_neg same]
    split
    · next above =>
      rcases planted.above place above same with nothing | isDirectory
      · exact .inr ⟨above, nothing, rfl⟩
      · exact .inl isDirectory.symm
    · exact .inl rfl

namespace Confined

variable {start files other : FileSystem} {base path : Path} {root location : Location}
  {names : List Name} {entry : Entry} {step : Change}

theorem paved (confined : Confined start base root files)
    (paved : Paved (root ++ names) files other) : Confined start base root other := by
  refine confined.rework ⟨paved.workingDirectory, ?_⟩ ?_ ?_
  · intro place outside
    rcases paved.get? place with same | ⟨above, nothing, _⟩
    · exact same
    · rcases List.prefix_or_prefix_of_prefix above (List.prefix_append root names) with
        aboveRoot | belowRoot
      · cases nothing.symm.trans (confined.get?_above aboveRoot)
      · have same : place = root := by
          by_contra differ
          exact outside ⟨belowRoot, differ⟩
        cases nothing.symm.trans (same ▸ confined.isDirectory)
  · intro below entry stands
    rcases paved.get? (root ++ below) with same | ⟨_, _, made⟩
    · exact confined.plain below entry (same ▸ stands)
    · exact .inl (Option.some.inj (stands.symm.trans made))
  · intro place _ isDirectory
    rcases paved.get? place with same | ⟨_, _, made⟩
    · rw [same, isDirectory]
    · exact made

theorem planted (confined : Confined start base root files)
    (planted : Planted (root ++ names) entry files other)
    (proper : names = [] → entry = .directory) (kind : entry = .directory ∨ entry.isFile = true) :
    Confined start base root other := by
  refine confined.rework ⟨planted.workingDirectory, ?_⟩ ?_ ?_
  · intro place outside
    rw [planted.get?]
    split
    · next same =>
      have isRoot : names = [] := by
        by_contra some
        exact outside (same ▸ inner_append some)
      rw [same, isRoot, List.append_nil, proper isRoot, confined.isDirectory]
    · split
      · next isAbove =>
        rcases List.prefix_or_prefix_of_prefix isAbove (List.prefix_append root names) with
          aboveRoot | belowRoot
        · exact (confined.get?_above aboveRoot).symm
        · have same : place = root := by
            by_contra differ
            exact outside ⟨belowRoot, differ⟩
          rw [same, confined.isDirectory]
      · rfl
  · intro below entry' stands
    rw [planted.get?] at stands
    split at stands
    · exact Option.some.inj stands ▸ kind
    · split at stands
      · exact .inl (Option.some.inj stands).symm
      · exact confined.plain below entry' stands
  · intro place _ isDirectory
    rw [planted.get?]
    split
    · next same =>
      rw [(planted.here _ (same ▸ isDirectory)).1 rfl]
    · split
      · rfl
      · exact isDirectory

variable (confined : Confined start base root files) (descends : Path.Descends base names path)
include confined descends

theorem lastStep_at {directory : Location} {name : Name}
    (comes : files.lastStep path = .ok (.named directory name)) :
    (names = [] → (files.get? (directory ++ [name])).isSome) ∧
      ∀ front last, names = front ++ [last] →
        directory = root ++ front ∧ name = last ∧ files.get? (root ++ front) = some .directory := by
  obtain ⟨-, used, _, before, moves, walk⟩ := lastStep_named comes
  rw [descends.startOf] at walk
  rw [descends.moves] at moves
  constructor
  · rintro rfl
    rw [List.map_nil, List.append_nil] at moves
    -- The base leads to an entry, so its last name cannot be missing.
    by_contra missing
    have lastMove : Walks files true 0 directory [.enter name] (.absent directory name) :=
      .missing (by simpa using missing)
    have absent := walk.append lastMove
    obtain ⟨_, _, present⟩ := confined.walk_base
    rw [← moves] at absent
    cases present.unique absent
  · rintro front last rfl
    rw [List.map_append, ← List.append_assoc] at moves
    obtain ⟨same, lastStep⟩ := List.append_inj' moves rfl
    obtain rfl : name = last := (PathStep.enter.inj (List.cons.inj lastStep).1).symm
    rw [← same] at walk
    obtain ⟨_, _, first⟩ := confined.walk_base
    obtain ⟨_, _, further⟩ := first.split walk
    have isDirectory := further.isDirectory confined.isDirectory
    rcases confined.walk_descending walk with ⟨found, _⟩ | ⟨_, _, _, impossible, _⟩
    · obtain rfl := Found.present.inj found
      exact ⟨rfl, rfl, isDirectory⟩
    · cases impossible

/-- A directory that can be made is missing from a directory that is there. -/
theorem makeDirectory_ok (made : makeDirectory path files = .ok step) :
    step = .place (root ++ names) .directory ∧ names ≠ [] ∧
      files.Accepts (root ++ names) ∧ files.get? (root ++ names) = none := by
  obtain ⟨directory, name, comes, missing, rfl⟩ := lastStep_of_makeDirectory made
  obtain ⟨atBase, inside⟩ := confined.lastStep_at descends comes
  have proper : names ≠ [] := by
    intro empty
    have stands := atBase empty
    rw [missing] at stands
    cases stands
  obtain ⟨front, last, rfl⟩ : ∃ front last, names = front ++ [last] :=
    ⟨_, _, (List.dropLast_append_getLast proper).symm⟩
  obtain ⟨rfl, rfl, isDirectory⟩ := inside front last rfl
  have nothing : files.get? (root ++ (front ++ [name])) = none := by
    rw [← List.append_assoc, missing]
  refine ⟨by rw [List.append_assoc], proper, ⟨by simp, ?_, by simp [nothing]⟩, nothing⟩
  rw [← List.append_assoc, List.dropLast_concat, isDirectory]

theorem makeDirectory_notFound (nonempty : path.bytes ≠ [])
    (missing : makeDirectory path files = .error .notFound) : names ≠ [] := by
  rintro rfl
  have leads : files.Leads path (.present root) := by
    obtain ⟨used, few, walk⟩ := leads_of_locate confined.locate
    refine ⟨used, few, ?_⟩
    rwa [descends.startOf, descends.moves, List.map_nil, List.append_nil]
  rw [makeDirectory] at missing
  cases comes : files.lastStep path with
  | error fault =>
    rw [comes] at missing
    obtain rfl := Except.error.inj missing
    exact lastStep_ne_notFound leads nonempty comes
  | ok last =>
    rw [comes] at missing
    cases last with
    | stay => cases missing
    | up => cases missing
    | root => cases missing
    | named directory name =>
      simp only [bind, Except.bind] at missing
      split at missing <;> cases missing

theorem isDirectory_at (isDirectory : files.isDirectory path = true) :
    files.get? (root ++ names) = some .directory :=
  confined.examined descends (examine_of_isDirectory isDirectory)

end Confined

end ImageStaging.FileSystem
