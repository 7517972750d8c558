import ImageStaging.Proofs.Action
import ImageStaging.Proofs.FileSystem.Site
import ImageStaging.Staging

/-!
# Resetting a context

If the way to the image source does not lead through the context, a reset can fail only because the
path of the context cannot be looked up at all, and then it has changed nothing. Otherwise it
leaves an empty directory there, whatever was at the context before, and nothing else differs.
-/

namespace ImageStaging

open FileSystem (checkPath Cleared Pruned Site)
open ImageStaging.Action (Ends)

variable {world : World} {source : Path} {directory : Location} {name : Name}

/-- Nothing is left in a directory and nothing else is different. -/
structure FileSystem.Emptied (location : Location) (files other : FileSystem) : Prop
    extends FileSystem.Reworked location files other where
  inside : ∀ child, other.get? (location ++ [child]) = none

theorem Files.removeChildren_ends (location : Location) :
    (forIn (world.files.children location) PUnit.unit fun child _ => do
      Action.change (.remove (location ++ [child]))
      pure (ForInStep.yield PUnit.unit) : Action FileFault PUnit).Ends world
      (fun _ after => FileSystem.Emptied location world.files after.files) (fun _ _ => False) := by
  refine (Ends.forIn (fun seen after =>
    after.files.workingDirectory = world.files.workingDirectory ∧
      ∀ place, after.files.get? place =
        if ∃ child ∈ seen, location ++ [child] <+: place then none
        else world.files.get? place) ⟨rfl, by simp⟩ ?_).mono ?_ fun _ _ failed => failed
  · rintro seen child _ after ⟨sameDirectory, emptied⟩
    simp only [Action.ends_bind, Action.ends_change, Action.ends_pure, FileSystem.apply]
    refine ⟨trivial, (FileSystem.workingDirectory_prune _ _).trans sameDirectory, fun place => ?_⟩
    rw [FileSystem.get?_prune (by simp), emptied]
    by_cases below : location ++ [child] <+: place
    · rw [if_pos below, if_pos ⟨child, by simp, below⟩]
    · rw [if_neg below]
      simp only [List.mem_append, List.mem_singleton, or_and_right, exists_or, exists_eq_left,
        below, or_false]
  · rintro _ after ⟨sameDirectory, emptied⟩
    refine ⟨⟨sameDirectory, fun place outside => ?_⟩, fun child => ?_⟩
    · rw [emptied, if_neg]
      rintro ⟨child, _, below⟩
      exact outside (FileSystem.inner_of_below (List.cons_ne_nil _ _) below)
    · rw [emptied]
      split
      · rfl
      · next notSeen =>
        by_contra standing
        have stands := Option.isSome_iff_ne_none.2 standing
        exact notSeen ⟨child, FileSystem.mem_children.2 stands, List.prefix_rfl⟩

theorem Files.removeTree_ends (site : Site world.files source directory name)
    (checked : checkPath (source.join name.toPath) = .ok ())
    (isDirectory : world.files.get? (directory ++ [name]) = some .directory) :
    (Files.removeTree (source.join name.toPath)).Ends world
      (fun _ after => Pruned (directory ++ [name]) world.files after.files) (fun _ _ => False) := by
  have located : world.files.locate .entry (source.join name.toPath) =
      .ok (directory ++ [name]) := by
    rw [site.locate_entry checked, isDirectory]
    rfl
  unfold Files.removeTree
  simp only [Action.ends_bind, Action.ends_look, Action.ends_get, located]
  refine ⟨?_, fun _ impossible => by cases impossible⟩
  rintro _ ⟨⟩
  refine (Files.removeChildren_ends _).mono ?_ fun _ _ failed => failed
  intro _ after emptied
  have agree := emptied.agreeOff
  have stillDirectory : after.files.get? (directory ++ [name]) = some .directory := by
    rw [emptied.get? _ fun inner => inner.2 rfl, isDirectory]
  have removed := (site.agree agree).removeDirectory checked stillDirectory emptied.inside
  simp only [Action.ends_attempt, Action.ends_edit, removed]
  refine ⟨?_, fun _ impossible => by cases impossible⟩
  rintro _ ⟨⟩
  have pruned : Pruned (directory ++ [name]) after.files
      (after.files.prune (directory ++ [name])) := .prune after.files (by simp)
  refine ⟨pruned.workingDirectory.trans emptied.workingDirectory,
    fun place => (pruned.get? place).trans ?_⟩
  split
  · rfl
  · next away => exact agree.get? place away

theorem Files.makeDirectories_pruned {files : FileSystem} (site : Site files source directory name)
    (checked : checkPath (source.join name.toPath) = .ok ())
    (pruned : Pruned (directory ++ [name]) files world.files) :
    (Files.makeDirectories (source.join name.toPath)).Ends world
      (fun _ after => Cleared (directory ++ [name]) files after.files) (fun _ _ => False) := by
  have made := (site.agree pruned.agreeOff).makeDirectory checked pruned.at_root
  unfold Files.makeDirectories Files.makeDirectoriesWithin
  rw [if_neg (Path.bytes_join_ne_nil name.bytes_toPath_ne_nil)]
  simp only [Action.ends_bind, Action.ends_attempt, Action.ends_edit, made]
  refine ⟨?_, fun _ impossible => by cases impossible⟩
  rintro _ ⟨⟩
  exact pruned.cleared (by simp) (by rw [List.dropLast_concat, site.isDirectory])

/-- What stood at the place of a context has gone, be it a directory, a file or a link. -/
theorem Staging.reset_ends (site : Site world.files source directory name) :
    (Staging.reset (source.join name.toPath)).Ends world
      (fun _ after => checkPath (source.join name.toPath) = .ok () ∧
        Cleared (directory ++ [name]) world.files after.files)
      (fun fault after => after = world ∧ ∃ cause,
        checkPath (source.join name.toPath) = .error cause ∧
          fault = .inspectContext (source.join name.toPath) cause) := by
  unfold Staging.reset
  simp only [Action.ends_bind, Action.ends_get]
  cases checked : checkPath (source.join name.toPath) with
  | error fault =>
    have unreadable : world.files.examineLink (source.join name.toPath) = .error fault := by
      rw [FileSystem.examineLink, FileSystem.locate, FileSystem.resolve, checked]
      rfl
    rw [unreadable]
    cases fault with
    | notFound =>
      have nonempty : (source.join name.toPath).bytes ≠ [] :=
        Path.bytes_join_ne_nil name.bytes_toPath_ne_nil
      exact absurd checked (FileSystem.checkPath_ne_notFound nonempty)
    | _ => exact ⟨rfl, _, rfl, rfl⟩
  | ok =>
    cases stands : world.files.get? (directory ++ [name]) with
    | none =>
      rw [site.examineLink_of_none checked stands]
      simp only [Action.ends_blaming]
      refine (Files.makeDirectories_pruned site checked (.of_nothing stands)).mono ?_ ?_
      · intro _ after cleared
        exact ⟨trivial, cleared⟩
      · intro _ _ impossible
        exact impossible.elim
    | some entry =>
      rw [site.examineLink_of_some checked stands]
      have removal : (if entry = .directory then Files.removeTree (source.join name.toPath)
          else Action.edit (FileSystem.removeFile (source.join name.toPath))).Ends world
            (fun _ after => Pruned (directory ++ [name]) world.files after.files)
            (fun _ _ => False) := by
        split
        · next isDirectory => exact Files.removeTree_ends site checked (isDirectory ▸ stands)
        · next notDirectory =>
          simp only [Action.ends_edit, site.removeFile checked stands notDirectory]
          refine ⟨?_, fun _ impossible => by cases impossible⟩
          rintro _ ⟨⟩
          exact .prune world.files (by simp)
      simp only [Action.ends_bind, Action.ends_blaming, Action.ends_note]
      refine removal.mono ?_ fun _ _ impossible => impossible.elim
      intro _ after pruned
      refine (Files.makeDirectories_pruned site checked ?_).mono ?_ ?_
      · exact pruned
      · intro _ after cleared
        exact ⟨trivial, cleared⟩
      · intro _ _ impossible
        exact impossible.elim

/-- At a path that cannot be looked up, a reset fails before it touches anything. -/
theorem Staging.reset_unusable_ends {path : Path} {fault : FileFault}
    (notMissing : fault ≠ .notFound) (failed : world.files.locate .entry path = .error fault) :
    (Staging.reset path).Ends world (fun _ _ => False) (fun _ after => after = world) := by
  have unreadable : world.files.examineLink path = .error fault := by
    rw [FileSystem.examineLink, failed]
    rfl
  unfold Staging.reset
  simp only [Action.ends_bind, Action.ends_get, unreadable]
  cases fault with
  | notFound => exact absurd rfl notMissing
  | _ => rfl

end ImageStaging
