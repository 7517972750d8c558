import ImageStaging.Proofs.FileSystem.Work

/-!
# Entries that go

`Pruned` is what taking an entry away does. In a confined directory the entries that are removed or
renamed are the ones that the names of the paths spell.
-/

namespace ImageStaging.FileSystem

/-- What stood at a location has gone, with everything below it. -/
structure Pruned (root : Location) (files other : FileSystem) : Prop where
  workingDirectory : other.workingDirectory = files.workingDirectory
  get? : ∀ place, other.get? place = if root <+: place then none else files.get? place

namespace Pruned

variable {root : Location} {files other : FileSystem}

theorem prune (files : FileSystem) (proper : root ≠ []) : Pruned root files (files.prune root) :=
  ⟨workingDirectory_prune files root, get?_prune proper⟩

theorem of_nothing (nothing : files.get? root = none) : Pruned root files files := by
  refine ⟨rfl, fun place => ?_⟩
  split
  · next below => exact get?_below_of_nothing nothing below
  · rfl

theorem agreeOff (pruned : Pruned root files other) : AgreeOff root files other :=
  ⟨pruned.workingDirectory, fun place outside => by rw [pruned.get?, if_neg outside]⟩

theorem at_root (pruned : Pruned root files other) : other.get? root = none := by
  rw [pruned.get?, if_pos List.prefix_rfl]

end Pruned

/-- What is moved is no directory, so nothing else goes with it. -/
theorem get?_move {files : FileSystem} {source target : Location} {entry : Entry}
    (stands : files.get? source = some entry) (notDirectory : entry ≠ .directory)
    (accepts : files.Accepts target) (proper : source ≠ []) (place : Location) :
    (files.apply (.move source target)).get? place =
      if place = target then some entry else if place = source then none
      else files.get? place := by
  have notAbove : ∀ place, files.get? place = some .directory → ¬ source <+: place := by
    intro place isDirectory below
    by_cases same : source = place
    · rw [← same, stands] at isDirectory
      exact notDirectory (Option.some.inj isDirectory)
    · have := get?_ancestor below same (by rw [isDirectory]; rfl)
      exact notDirectory (Option.some.inj (stands.symm.trans this))
  have pruned := Pruned.prune files proper
  have acceptsThen : (files.prune source).Accepts target := by
    refine ⟨accepts.1, ?_, ?_⟩
    · rw [pruned.get?, if_neg (notAbove _ accepts.2.1), accepts.2.1]
    · rw [pruned.get?]
      split
      · simp
      · exact accepts.2.2
  simp only [apply, stands, get?_place, acceptsThen, true_and, pruned.get?]
  split
  · rfl
  · by_cases same : place = source
    · rw [if_pos (same ▸ List.prefix_rfl), if_pos same]
    · rw [if_neg same]
      split
      · next below =>
        obtain ⟨back, rfl⟩ := below
        refine (get?_below_of_not_directory ?_ (by simpa using same)).symm
        rw [stands]
        exact fun isDirectory => notDirectory (Option.some.inj isDirectory)
      · rfl

theorem workingDirectory_move (files : FileSystem) (source target : Location) :
    (files.apply (.move source target)).workingDirectory = files.workingDirectory := by
  simp only [apply]
  split
  · rw [workingDirectory_place, workingDirectory_prune]
  · rfl

namespace Confined

variable {start files other : FileSystem} {base path path' : Path} {root : Location}
  {names front front' : List Name} {last last' : Name} {step : Change}

theorem pruned (confined : Confined start base root files) (proper : names ≠ [])
    (notDirectory : files.get? (root ++ names) ≠ some .directory)
    (pruned : Pruned (root ++ names) files other) : Confined start base root other := by
  refine confined.rework ⟨pruned.workingDirectory, fun place outside => ?_⟩ ?_ ?_
  · rw [pruned.get?, if_neg]
    intro below
    exact outside (inner_of_below proper below)
  · intro below entry stands
    rw [pruned.get?] at stands
    split at stands
    · cases stands
    · exact confined.plain below entry stands
  · intro place _ isDirectory
    rw [pruned.get?, if_neg, isDirectory]
    rintro ⟨rest, rfl⟩
    by_cases here : rest = []
    · rw [here, List.append_nil] at isDirectory
      exact notDirectory isDirectory
    · cases (get?_below_of_not_directory notDirectory here).symm.trans isDirectory

/-- A file moved inside the directory. -/
theorem moved {source target : List Name} {entry : Entry}
    (confined : Confined start base root files) (properSource : source ≠ [])
    (properTarget : target ≠ []) (stands : files.get? (root ++ source) = some entry)
    (notDirectory : entry ≠ .directory) (accepts : files.Accepts (root ++ target)) :
    Confined start base root (files.apply (.move (root ++ source) (root ++ target))) := by
  have get? := get?_move stands notDirectory accepts (by simp [properSource])
  refine confined.rework ⟨workingDirectory_move files _ _, fun place outside => ?_⟩ ?_ ?_
  · have notTarget : place ≠ root ++ target := by
      rintro rfl
      exact outside (inner_append properTarget)
    have notSource : place ≠ root ++ source := by
      rintro rfl
      exact outside (inner_append properSource)
    rw [get?, if_neg notTarget, if_neg notSource]
  · intro below entry' standing
    rw [get?] at standing
    split at standing
    · exact Option.some.inj standing ▸ confined.plain source entry stands
    · split at standing
      · cases standing
      · exact confined.plain below entry' standing
  · intro place _ isDirectory
    have notTarget : place ≠ root ++ target := by
      rintro rfl
      exact accepts.2.2 isDirectory
    have notSource : place ≠ root ++ source := by
      rintro rfl
      exact notDirectory (Option.some.inj (stands.symm.trans isDirectory))
    rw [get?, if_neg notTarget, if_neg notSource, isDirectory]

/-- Only what is not there cannot be found to be removed. -/
theorem removeFile_notFound {name : Name} (confined : Confined start base root files)
    (missing : removeFile (base.join name.toPath) files = .error .notFound) :
    files.get? (root ++ [name]) = none := by
  rw [removeFile, lastStep_join (leads_of_locate confined.locate) confined.isDirectory] at missing
  cases checked : checkPath (base.join name.toPath) with
  | error fault =>
    rw [checked] at missing
    obtain rfl := Except.error.inj missing
    exact absurd checked (checkPath_ne_notFound (Path.bytes_join_ne_nil name.bytes_toPath_ne_nil))
  | ok =>
    rw [checked] at missing
    simp only [Except.map, bind, Except.bind] at missing
    split at missing
    · assumption
    · cases missing
    · split at missing <;> cases missing

variable (confined : Confined start base root files)
  (descends : Path.Descends base (front ++ [last]) path)
include confined descends

theorem removeFile_ok (removed : removeFile path files = .ok step) :
    step = .remove (root ++ (front ++ [last])) ∧
      files.get? (root ++ (front ++ [last])) ≠ some .directory := by
  obtain ⟨directory, name, comes, ⟨entry, stands, notDirectory⟩, -, rfl⟩ :=
    lastStep_of_removeFile removed
  obtain ⟨rfl, rfl, -⟩ := (confined.lastStep_at descends comes).2 front last rfl
  rw [List.append_assoc] at stands ⊢
  exact ⟨rfl, fun isDirectory => notDirectory (Option.some.inj (stands.symm.trans isDirectory))⟩

theorem rename_ok (descends' : Path.Descends base (front' ++ [last']) path')
    (renamed : rename path path' files = .ok step) :
    step = .move (root ++ (front ++ [last])) (root ++ (front' ++ [last'])) ∧
      files.Accepts (root ++ (front' ++ [last'])) ∧
        ∃ entry, files.get? (root ++ (front ++ [last])) = some entry ∧ entry ≠ .directory := by
  obtain ⟨directory, name, directory', name', comes, comes', moves, -, free, rfl⟩ :=
    lastStep_of_rename renamed
  obtain ⟨rfl, rfl, -⟩ := (confined.lastStep_at descends comes).2 front last rfl
  obtain ⟨rfl, rfl, isDirectory⟩ := (confined.lastStep_at descends' comes').2 front' last' rfl
  rw [List.append_assoc] at moves free ⊢
  rw [List.append_assoc]
  refine ⟨rfl, ⟨by simp, ?_, free⟩, moves⟩
  rw [← List.append_assoc, List.dropLast_concat, isDirectory]

end Confined

end ImageStaging.FileSystem
