import ImageStaging.Proofs.FileSystem.Removal
import ImageStaging.Proofs.Files
import ImageStaging.Proofs.Layout
import ImageStaging.Replacement

/-!
# What replacing a Dockerfile does

The new Dockerfile of a context is written to its sibling and moved from there. If that succeeds,
the sibling has gone again; if anything fails, it has still been work in the context.
-/

namespace ImageStaging.Replacement

open FileSystem (Confined Planted)
open Layout (dockerfileName temporaryName)

variable {start : FileSystem} {context temporary : Path} {root : Location} {world : World}

theorem temporary_descends
    (found : temporary? (context.join dockerfileName.toPath) = some temporary) :
    Path.Descends context [temporaryName] temporary := by
  have isText : Utf8.decode? dockerfileName.bytes = some Layout.dockerfile.toList := by decide
  have isName : Path.ofText ('.' :: Layout.dockerfile.toList ++ ['.', 't', 'm', 'p']) =
      temporaryName.toPath := by decide
  have descends := (Path.Descends.refl context).join_name dockerfileName
  have proper : (context.join dockerfileName.toPath).moves ≠ [] := by
    rw [descends.moves]
    simp
  obtain ⟨parent, isParent⟩ := Option.isSome_iff_exists.1 (Path.parent?_isSome proper)
  rw [temporary?, Path.fileName?_join_name, isParent] at found
  simp only [Option.bind_eq_bind, Option.bind_some, isText, isName, Option.getD_some,
    Option.some.injEq] at found
  rw [← found]
  exact (descends.parent isParent).join_name temporaryName

theorem makeParent_ends (confined : Confined start context root world.files) :
    (makeParent (context.join dockerfileName.toPath)).Ends world
      (fun _ after => Planted root .directory world.files after.files)
      (fun _ after => Confined start context root after.files) := by
  have standing : Planted root .directory world.files world.files :=
    .of_standing confined.isDirectory
  unfold makeParent
  cases found : (context.join dockerfileName.toPath).parent? with
  | none => exact standing
  | some parent =>
    have descends := ((Path.Descends.refl context).join_name dockerfileName).parent found
    have made := Files.makeDirectories_ends confined descends
    rw [List.append_nil] at made
    simp only [Action.ends_bind, Action.ends_get]
    split
    · exact standing
    · rw [Action.ends_blaming]
      refine made.mono (fun _ _ planted => planted) fun _ _ paved => ?_
      exact confined.paved (by rwa [List.append_nil])

/-- A sibling that is taken away leaves the context one. -/
theorem discard_ends (confined : Confined start context root world.files)
    (descends : Path.Descends context ([] ++ [temporaryName]) temporary) :
    (discard temporary).Ends world (fun _ after => Confined start context root after.files)
      (fun _ _ => False) := by
  unfold discard
  simp only [Action.ends_bind, Action.ends_attempt, Action.ends_edit, Action.ends_pure]
  refine ⟨fun step removed => ?_, fun _ _ => confined⟩
  obtain ⟨rfl, notDirectory⟩ := confined.removeFile_ok descends removed
  exact confined.pruned (by simp) notDirectory (.prune _ (by simp))

theorem orDiscard_ends {step : Action FileFault Unit} {tell : FileFault → StagingFault}
    {done : Unit → World → Prop}
    (ends : step.Ends world done fun _ after => Confined start context root after.files)
    (descends : Path.Descends context ([] ++ [temporaryName]) temporary) :
    (orDiscard temporary tell step).Ends world done
      (fun _ after => Confined start context root after.files) := by
  unfold orDiscard
  simp only [Action.ends_bind, Action.ends_attempt]
  refine ends.mono (fun _ _ held => held) fun fault after confined => ?_
  simp only [Action.ends_throw]
  exact (discard_ends confined descends).mono (fun _ _ confined => confined)
    fun _ _ impossible => impossible.elim

/-- The Dockerfile has its new content, its sibling has gone and nothing else differs. -/
structure Replaced (root : Location) (content : Bytes) (files other : FileSystem) : Prop where
  dockerfile : ∃ executable,
    other.get? (root ++ [dockerfileName]) = some (.file content executable)
  temporary : other.get? (root ++ [temporaryName]) = none
  others : ∀ place, place ≠ root ++ [dockerfileName] → place ≠ root ++ [temporaryName] →
    other.get? place = files.get? place

theorem replace_ends (content : Bytes) (confined : Confined start context root world.files) :
    (replace (context.join dockerfileName.toPath) content).Ends world
      (fun _ after => Confined start context root after.files ∧
        Replaced root content world.files after.files)
      (fun _ after => Confined start context root after.files) := by
  unfold replace
  rw [Action.ends_bind]
  refine (makeParent_ends confined).mono ?_ fun _ _ confined => confined
  intro _ first standing
  have confinedFirst : Confined start context root first.files :=
    confined.paved (by rw [List.append_nil]; exact standing.paved)
  cases isTemporary : temporary? (context.join dockerfileName.toPath) with
  | none => exact confinedFirst
  | some temporary =>
    have descends : Path.Descends context ([] ++ [temporaryName]) temporary :=
      temporary_descends isTemporary
    simp only [Action.ends_bind, Action.ends_blaming]
    refine (Files.create_ends confinedFirst descends).mono ?_ ?_
    · rintro location second ⟨rfl, _, executable, created⟩
      have confinedSecond := confinedFirst.planted created (by simp) (.inr rfl)
      have written := Files.write_ends content created.at_location (by simp)
      have confinedBegun := written.mono (fun _ _ planted => planted) fun _ after begun =>
        begun.elim fun _ begun =>
          (confinedSecond.planted begun (by simp) (.inr rfl) :
            Confined start context root after.files)
      refine (orDiscard_ends confinedBegun descends).mono ?_ fun _ _ confined => confined
      intro _ third written
      have planted := created.overwritten written
      have confinedThird := confinedFirst.planted planted (by simp) (.inr rfl)
      have stands := planted.at_location
      have synced := (Files.sync_ends stands).mono (fun _ _ same => same)
        fun _ after (same : after.files = third.files) => same ▸ confinedThird
      refine (orDiscard_ends synced descends).mono ?_ fun _ _ confined => confined
      intro _ fourth same
      rw [← same] at planted confinedThird stands
      refine orDiscard_ends (Action.ends_edit.2 ⟨fun step renamed => ?_, fun _ _ => confinedThird⟩)
        descends
      have target := (Path.Descends.refl context).join_name dockerfileName
      obtain ⟨rfl, accepts, _⟩ := confinedThird.rename_ok descends target renamed
      have confinedLast := confinedThird.moved (by simp) (by simp) stands (by simp) accepts
      have moved := FileSystem.get?_move stands (by simp) accepts (by simp)
      simp only [List.nil_append] at moved planted
      refine ⟨confinedLast, ⟨executable, ?_⟩, ?_, ?_⟩
      · exact (moved _).trans (if_pos rfl)
      · refine (moved _).trans ?_
        rw [if_neg (by simpa using Layout.temporaryName_ne_dockerfileName), if_pos rfl]
      · intro place notTarget notSource
        by_cases above : place <+: root
        · rw [confinedLast.get?_above above, confined.get?_above above]
        · refine (moved _).trans ?_
          rw [if_neg notTarget, if_neg notSource, planted.elsewhere, standing.elsewhere above]
          intro below
          rcases List.prefix_concat_iff.1 below with same | below
          · exact notSource same
          · exact above below
    · rintro _ _ rfl
      exact confinedFirst

end ImageStaging.Replacement
