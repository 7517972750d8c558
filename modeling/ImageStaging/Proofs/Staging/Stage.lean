import ImageStaging.Proofs.Staging.Populate
import ImageStaging.Proofs.Staging.Reset

/-!
# What staging does

Staging empties the context and populates it, and then decides once more which flavour the source
has. By then the context is in place, so a link into the context can make the two decisions differ.
They agree on a Dockerfile or template that keeps out of the context: populating takes nothing away,
so it cannot hide a template that was there.
-/

namespace ImageStaging.Staging

open FileSystem (AgreeOff Cleared Confined Site)
open ImageStaging.Action (GivesOnly)

variable {world : World} {source : Path} {start files : FileSystem} {root directory : Location}
  {name : Name} {copied : Option Flavour} {context : BuildContext}

/-- What a staged context holds, told by the files before staging. -/
structure Staged (start : FileSystem) (source : Path) (root : Location) (copied : Option Flavour)
    (context : BuildContext) (files : FileSystem) : Prop where
  confined : Confined start context.root root files
  chosen : Chosen files source (some context.flavour)
  agreed : start.Avoids root (source.join context.flavour.name.toPath) →
    copied = some context.flavour
  dockerfile : ∀ found, copied = some found →
    start.Apart root (source.join found.name.toPath) → ∀ names,
      files.get? (root ++ found.name :: names) = start.tree (source.join found.name.toPath) names
  sourceTree : start.Apart root (source.join Layout.sourceTreeName.toPath) → ∀ names,
    files.get? (root ++ Layout.sourceTreeName :: names) =
      start.tree (source.join Layout.sourceTreeName.toPath) names
  others : ∀ other rest, other ≠ Layout.sourceTreeName →
    (∀ found, copied = some found → other ≠ found.name) →
    files.get? (root ++ other :: rest) = none

theorem classify_ends (source : Path) :
    (classify source).Ends world
      (fun flavour after => after = world ∧ Chosen world.files source (some flavour))
      (fun _ after => after = world) := by
  unfold classify
  simp only [Action.ends_bind, Action.ends_blaming]
  refine (flavour?_ends source).mono ?_ fun _ _ same => same
  rintro found after ⟨rfl, chosen⟩
  cases found with
  | some flavour => exact ⟨rfl, chosen⟩
  | none => rfl

section Emptied

variable {cleared : FileSystem} {flavour : Flavour} {path : Path}
  (wasCleared : Cleared root start cleared)
include wasCleared

/-- What was supplied to an empty place is all that is there. -/
theorem get?_supplied {tree : List Name → Option Entry} {other : Name}
    (supplied : FileSystem.Supplied tree (root ++ [other]) cleared files) (names : List Name) :
    files.get? (root ++ other :: names) = tree names := by
  have place : root ++ other :: names = root ++ [other] ++ names := by simp
  cases stands : tree names with
  | some entry =>
    rw [place]
    exact supplied.present names entry stands
  | none =>
    have nothing : cleared.get? (root ++ other :: names) = none := wasCleared.inside (by simp)
    rw [place] at nothing ⊢
    rw [supplied.absent names stands, nothing]

variable (populated : Populated start source path root copied cleared files)
include populated

/-- Outside the context everything is as it was, and nothing was inside, so nothing has gone. -/
theorem Populated.still_stands {place : Location} {entry : Entry}
    (stands : cleared.get? place = some entry) : files.get? place = some entry := by
  by_cases inside : root <+: place
  · by_cases same : place = root
    · rw [same, wasCleared.at_root] at stands
      rw [same, populated.confined.isDirectory, stands]
    · rw [wasCleared.get?, if_neg same, if_pos inside] at stands
      cases stands
  · rw [populated.confined.agree.get? place inside, ← wasCleared.agreeOff.get? place inside, stands]

/-- Whether a file is there that keeps out of the context, populating does not change. -/
theorem Populated.exists?_eq {flavour : Flavour}
    (avoids : start.Avoids root (source.join flavour.name.toPath)) :
    files.exists? (source.join flavour.name.toPath) =
      cleared.exists? (source.join flavour.name.toPath) := by
  rw [populated.confined.agree.exists?_eq avoids, wasCleared.agreeOff.exists?_eq avoids]

/-- At the name of a flavour stands what the source has there, if that flavour was copied. -/
theorem Populated.get?_flavour {flavour : Flavour}
    (apart : start.Apart root (source.join flavour.name.toPath)) (names : List Name) :
    files.get? (root ++ flavour.name :: names) =
      if copied = some flavour then start.tree (source.join flavour.name.toPath) names
      else none := by
  split
  · next same => exact get?_supplied wasCleared (populated.dockerfile flavour same apart) names
  · next differ =>
    rw [populated.others flavour.name names flavour.name_ne_sourceTree ?_,
      wasCleared.inside (by simp)]
    rintro found isFound same
    rw [isFound, Flavour.name_injective same] at differ
    exact differ rfl

/-- A file that keeps out of the context and is chosen in the end was chosen at first. -/
theorem Populated.copied_eq (chosen : Chosen files source (some flavour))
    (avoids : start.Avoids root (source.join flavour.name.toPath)) : copied = some flavour := by
  have same := (Populated.exists?_eq wasCleared populated avoids).symm
  have sameDirectory : files.workingDirectory = cleared.workingDirectory :=
    populated.confined.agree.workingDirectory.trans wasCleared.workingDirectory.symm
  cases flavour with
  | template =>
    have holds := same.trans chosen
    rcases copied with _ | _ | _
    · cases populated.chosen.1.symm.trans holds
    · rfl
    · cases populated.chosen.1.symm.trans holds
  | plain =>
    have holds := same.trans chosen.2
    rcases copied with _ | _ | _
    · cases populated.chosen.2.symm.trans holds
    · have nonempty : (source.join (Path.ofString Layout.template)).bytes ≠ [] :=
        Path.bytes_join_ne_nil Layout.templateName.bytes_toPath_ne_nil
      have stillThere := FileSystem.exists?_ne_false_of_more sameDirectory
        (fun _ _ stands => Populated.still_stands wasCleared populated stands) nonempty
        populated.chosen
      exact absurd chosen.1 stillThere
    · rfl

/-- What populating an emptied context leaves in it is what the source holds. -/
theorem Populated.staged (chosen : Chosen files source (some flavour)) :
    Staged start source root copied ⟨path, flavour⟩ files := by
  refine ⟨populated.confined, chosen, Populated.copied_eq wasCleared populated chosen, ?_, ?_, ?_⟩
  · intro found isFound apart
    exact get?_supplied wasCleared (populated.dockerfile found isFound apart)
  · intro apart
    exact get?_supplied wasCleared (populated.sourceTree apart)
  · intro other rest notTree notDockerfile
    rw [populated.others other rest notTree notDockerfile, wasCleared.inside (by simp)]

end Emptied

/-- Whatever stands there, a staged context is at the path that it was to be at. -/
theorem stage_root (source path : Path) :
    (stage source path).GivesOnly fun context => context.root = path := by
  unfold stage
  refine GivesOnly.last fun _ => GivesOnly.last fun _ => GivesOnly.last fun flavour => ?_
  exact GivesOnly.last fun _ => Action.givesOnly_pure rfl

/-- Staging into a directory of the source other than those that it reads. -/
theorem stage_ends (site : Site world.files source directory name) :
    (stage source (source.join name.toPath)).Ends world
      (fun context after => context.root = source.join name.toPath ∧ ∃ copied,
        Staged world.files source (directory ++ [name]) copied context after.files)
      (fun _ after => AgreeOff (directory ++ [name]) world.files after.files) := by
  unfold stage
  simp only [Action.ends_bind, Action.ends_blaming, Action.ends_note, Action.ends_pure]
  refine (reset_ends site).mono ?_ ?_
  · rintro _ emptied ⟨checked, cleared⟩
    have confined := site.confined checked cleared.agreeOff cleared.at_root cleared.plain
    refine (populate_ends confined).mono ?_ fun _ _ confined => confined.agree
    intro copied full populated
    refine (classify_ends source).mono ?_ ?_
    · rintro flavour _ ⟨rfl, chosen⟩
      exact ⟨trivial, copied, Populated.staged cleared populated chosen⟩
    · rintro _ _ rfl
      exact populated.confined.agree
  · rintro _ _ ⟨rfl, -⟩
    exact .refl _ _

end ImageStaging.Staging
