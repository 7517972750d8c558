import ImageStaging.Proofs.Directories
import ImageStaging.Proofs.Staging.Reset

/-!
# Contexts of a source that is not there

The path of a context can be made although there is no source directory yet: the missing directories
are made with it. If the path of the source does not turn back once it has run out, that leaves an
empty context below directories that are new, too. Making them can fail on the way, which leaves
some of those directories.
-/

namespace ImageStaging

open FileSystem (AsksEntry Founded Grown RunsOut Straight checkPath)

/-! ## Resetting where there is no source directory -/

section Nowhere

variable {world : World} {source more : Path} (asks : AsksEntry more) (nonempty : source.bytes ≠ [])
  (nowhere : ∀ directory, world.files.locate .target source = .ok directory →
    world.files.get? directory ≠ some .directory)
  (straight : Straight world.files source)
include asks nonempty nowhere straight

theorem Files.makeDirectories_runsOut_ends {here : Location} {name : Name} {rest : List PathStep}
    (checked : checkPath (source.join more) = .ok ())
    (out : RunsOut world.files (source.join more) here name rest) :
    (Files.makeDirectories (source.join more)).Ends world
      (fun _ after => ∃ directory name, Founded world.files source more directory name after.files)
      (fun _ after => Grown world.files (source.join more) after.files) := by
  obtain ⟨last, -, moves, ends⟩ := asks.exists_last source
  have isAbsolute : source.isAbsolute = (source.join more).isAbsolute :=
    (Path.isAbsolute_join asks.1).symm
  rcases List.eq_nil_or_concat' rest with rfl | ⟨front, last', rfl⟩
  · -- Then only the context itself would be missing, from a source directory that is there.
    obtain ⟨used, few, walk⟩ := out.walk_above isAbsolute moves
    exact absurd walk
      (FileSystem.not_walks_nowhere asks nonempty nowhere checked few out.isDirectory)
  · obtain ⟨outSource, rfl⟩ := out.above isAbsolute moves
    have noUp : .up ∉ front ++ [last] := by
      have notLast : .up ≠ last := by
        rcases ends with rfl | ⟨entry, rfl, -⟩ <;> simp
      simpa [notLast] using straight here name front outSource
    refine (Files.makeDirectoriesWithin_missing_ends _ out noUp).mono ?_ ?_
    · rintro _ after ⟨names, spelled, planted⟩
      have grown : Grown world.files (source.join more) after.files :=
        out.grown (by rw [spelled, List.append_nil]) planted.paved
      obtain ⟨names, _, rfl, rfl, single⟩ := List.map_eq_append_iff.1 spelled.symm
      obtain ⟨entry, rfl, rfl⟩ := List.map_eq_singleton_iff.1 single
      rcases ends with impossible | ⟨_, same, rfl⟩
      · cases impossible
      · obtain rfl := PathStep.enter.inj same
        rw [← List.cons_append, ← List.append_assoc] at planted
        obtain ⟨fresh, nothing⟩ := outSource.fresh nonempty checked planted
        exact ⟨_, entry, rfl, fresh, nothing, grown⟩
    · rintro _ after ⟨names, more', spelled, paved⟩
      exact out.grown spelled paved

theorem Files.makeDirectories_nowhere_ends (checked : checkPath (source.join more) = .ok ()) :
    (Files.makeDirectories (source.join more)).Ends world
      (fun _ after => ∃ directory name, Founded world.files source more directory name after.files)
      (fun _ after => Grown world.files (source.join more) after.files) := by
  by_cases runs : ∃ here name rest, RunsOut world.files (source.join more) here name rest
  · obtain ⟨here, name, rest, out⟩ := runs
    exact Files.makeDirectories_runsOut_ends asks nonempty nowhere straight checked out
  · have never : ∀ here name rest, ¬ RunsOut world.files (source.join more) here name rest :=
      fun here name rest out => runs ⟨here, name, rest, out⟩
    refine (Files.makeDirectoriesWithin_of_not_runsOut _ never).mono ?_ ?_
    · rintro _ world ⟨rfl, isDirectory⟩
      have proper : (source.join more).bytes ≠ [] := Path.bytes_join_ne_nil asks.bytes_ne_nil
      obtain ⟨location, leads⟩ := FileSystem.leads_of_isDirectory (isDirectory proper)
      exact absurd leads (FileSystem.not_leads_nowhere asks nonempty nowhere checked)
    · rintro _ _ rfl
      exact .refl _ _

/-- Where there is no source directory, a reset makes it with the context or fails on the way. -/
theorem Staging.reset_nowhere_ends :
    (Staging.reset (source.join more)).Ends world
      (fun _ after => ∃ directory name, Founded world.files source more directory name after.files)
      (fun _ after => Grown world.files (source.join more) after.files) := by
  obtain ⟨fault, failed⟩ := FileSystem.locate_entry_nowhere asks nonempty nowhere
  by_cases missing : fault = .notFound
  · subst missing
    have unseen : world.files.examineLink (source.join more) = .error .notFound := by
      rw [FileSystem.examineLink, failed]
      rfl
    have checked : checkPath (source.join more) = .ok () := by
      cases result : checkPath (source.join more) with
      | ok => rfl
      | error fault =>
        rw [FileSystem.locate, FileSystem.resolve_eq, result] at failed
        obtain rfl := Except.error.inj failed
        exact absurd result
          (FileSystem.checkPath_ne_notFound (Path.bytes_join_ne_nil asks.bytes_ne_nil))
    unfold Staging.reset
    simp only [Action.ends_bind, Action.ends_get, unseen, Action.ends_blaming]
    exact Files.makeDirectories_nowhere_ends asks nonempty nowhere straight checked
  · refine (Staging.reset_unusable_ends missing failed).mono ?_ ?_
    · intro _ _ impossible
      exact impossible.elim
    · rintro _ _ rfl
      exact .refl _ _

end Nowhere

end ImageStaging
