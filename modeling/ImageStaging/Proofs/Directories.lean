import ImageStaging.Proofs.Files
import ImageStaging.Proofs.FileSystem.Reach

/-!
# Making the directories of a path

If a path runs out and does not turn back, the directories that are made for it stand where its
names spell, one below the other, or some of them if that fails. If it never runs out, nothing is
made. Either way the directory that a success leaves is the one that the path reaches.
-/

namespace ImageStaging.Files

open FileSystem (Laid Paved Planted RunsOut Straight checkPath makeDirectory)
open ImageStaging.Action (edit)

variable {world : World} {path : Path} {here : Location} {name : Name} {rest : List PathStep}

theorem edit_makeDirectory_ends (path : Path) (world : World) :
    (edit (makeDirectory path)).Ends world
      (fun _ after => ∃ here name, RunsOut world.files path here name [] ∧
        after.files = world.files.place (here ++ [name]) .directory)
      (fun fault after => after = world ∧ makeDirectory path world.files = .error fault) := by
  refine Action.ends_edit.2 ⟨fun step made => ?_, fun fault failed => ⟨rfl, failed⟩⟩
  obtain ⟨here, name, rfl, out⟩ := RunsOut.of_makeDirectory made
  exact ⟨here, name, out, rfl⟩

theorem accept_isDirectory (path : Path) (fault : FileFault) (world : World) :
    (makeDirectoriesWithin.accept path fault).Ends world
      (fun _ after => after = world ∧ world.files.isDirectory path = true)
      (fun _ after => after = world) := by
  simp only [makeDirectoriesWithin.accept, Action.ends_bind, Action.ends_get]
  split
  · next isDirectory => exact ⟨rfl, isDirectory⟩
  · exact rfl

theorem settle_runsOut (path : Path) (world : World) :
    (makeDirectoriesWithin.settle path).Ends world
      (fun _ after => (∃ here name, RunsOut world.files path here name [] ∧
          after.files = world.files.place (here ++ [name]) .directory) ∨
        (after = world ∧ world.files.isDirectory path = true))
      (fun _ after => after = world) := by
  simp only [makeDirectoriesWithin.settle, Action.ends_bind, Action.ends_attempt, Action.ends_pure]
  refine (edit_makeDirectory_ends path world).mono (fun _ _ made => .inl made) ?_
  rintro fault _ ⟨rfl, -⟩
  exact (accept_isDirectory path fault _).mono (fun _ _ accepted => .inr accepted)
    fun _ _ same => same

/-- One level of making directories: a missing last name is made, a directory is taken as it is, and
only otherwise is the level above seen to before the path is tried again. -/
theorem makeDirectoriesWithin_step {depth : Nat} {done : Unit → World → Prop}
    {failed : FileFault → World → Prop} (nonempty : path.bytes ≠ [])
    (makes : ∀ here name, RunsOut world.files path here name [] → ∀ after : World,
      after.files = world.files.place (here ++ [name]) .directory → done () after)
    (stands : world.files.isDirectory path = true → done () world)
    (fails : ∀ fault, failed fault world)
    (climbs : ∀ above, path.parent? = some above →
      (makeDirectoriesWithin depth above).Ends world
        (fun _ middle => (makeDirectoriesWithin.settle path).Ends middle done failed) failed) :
    (makeDirectoriesWithin (depth + 1) path).Ends world done failed := by
  rw [makeDirectoriesWithin, if_neg nonempty]
  simp only [Action.ends_bind, Action.ends_attempt]
  refine (edit_makeDirectory_ends path world).mono ?_ ?_
  · rintro _ after ⟨here, name, out, made⟩
    exact makes here name out after made
  · rintro fault world ⟨rfl, -⟩
    by_cases missing : fault = .notFound
    · subst missing
      cases found : path.parent? with
      | none => exact fails .notFound
      | some above =>
        simp only [Action.ends_bind]
        exact climbs above found
    · have accepted := accept_isDirectory path fault world
      have accepts : (makeDirectoriesWithin.accept path fault).Ends world done failed := by
        refine accepted.mono ?_ ?_
        · rintro _ _ ⟨rfl, isDirectory⟩
          exact stands isDirectory
        · rintro _ _ rfl
          exact fails _
      cases fault with
      | notFound => exact absurd rfl missing
      | _ => exact accepts

/-- Nothing is made for a path that never runs out. -/
theorem makeDirectoriesWithin_of_not_runsOut (depth : Nat)
    (never : ∀ here name rest, ¬ RunsOut world.files path here name rest) :
    (makeDirectoriesWithin depth path).Ends world
      (fun _ after => after = world ∧ (path.bytes ≠ [] → world.files.isDirectory path = true))
      (fun _ after => after = world) := by
  induction depth generalizing path with
  | zero => exact rfl
  | succ depth ih =>
    by_cases empty : path.bytes = []
    · rw [makeDirectoriesWithin, if_pos empty]
      exact ⟨rfl, fun nonempty => absurd empty nonempty⟩
    · refine makeDirectoriesWithin_step empty (fun here name out => absurd out (never here name []))
        (fun isDirectory => ⟨rfl, fun _ => isDirectory⟩) (fun _ => rfl) ?_
      intro above found
      have neverAbove : ∀ here name rest, ¬ RunsOut world.files above here name rest := by
        intro here name rest out
        obtain ⟨isAbsolute, ⟨-, noMoves⟩ | ⟨last, moves⟩⟩ := Path.moves_parent? found
        · exact out.moves_ne_nil noMoves
        · exact never here name _ (out.extend isAbsolute.symm moves)
      refine (ih neverAbove).mono ?_ fun _ _ same => same
      rintro _ world ⟨rfl, -⟩
      refine (settle_runsOut path world).mono ?_ fun _ _ same => same
      rintro _ after (⟨here, name, out, -⟩ | ⟨same, isDirectory⟩)
      · exact absurd out (never here name [])
      · exact ⟨same, fun _ => isDirectory⟩

theorem not_isDirectory_of_runsOut {files : FileSystem} (out : RunsOut files path here name rest) :
    files.isDirectory path ≠ true := by
  intro isDirectory
  obtain ⟨location, leads⟩ := FileSystem.leads_of_isDirectory isDirectory
  exact out.not_leads leads

/-- The one name that is missing is made. -/
theorem settle_last_ends (out : RunsOut world.files path here name []) :
    (makeDirectoriesWithin.settle path).Ends world
      (fun _ after => Planted (here ++ [name]) .directory world.files after.files)
      (fun _ after => after = world) := by
  refine (settle_runsOut path world).mono ?_ fun _ _ same => same
  rintro _ after (⟨here', name', out', made⟩ | ⟨-, isDirectory⟩)
  · obtain ⟨rfl, rfl, -⟩ := out.unique out'
    exact made ▸ out.planted
  · exact absurd isDirectory (not_isDirectory_of_runsOut out)

/-- The next name is made in the last of the directories that were made before. -/
theorem settle_next_ends {files : FileSystem} {above : Path} {names : List Name} {last : PathStep}
    (out : RunsOut files above here name (names.map .enter))
    (planted : Planted (here ++ name :: names) .directory files world.files)
    (isAbsolute : path.isAbsolute = above.isAbsolute) (moves : path.moves = above.moves ++ [last])
    (notUp : last ≠ .up) :
    (makeDirectoriesWithin.settle path).Ends world
      (fun _ after => ∃ entry, last = .enter entry ∧
        Planted (here ++ name :: (names ++ [entry])) .directory files after.files)
      (fun _ after => after = world) := by
  refine (settle_runsOut path world).mono ?_ fun _ _ same => same
  rintro _ after (⟨here', entry, out', made⟩ | ⟨-, isDirectory⟩)
  · obtain ⟨rfl, isLast⟩ := out.next planted isAbsolute moves out'
    have whole := planted.trans (made ▸ out'.planted)
    rw [List.append_assoc] at whole
    exact ⟨entry, isLast, whole⟩
  · obtain ⟨location, leads⟩ := FileSystem.leads_of_isDirectory isDirectory
    exact absurd leads (out.not_leads_planted planted isAbsolute moves notUp)

/-- The directories that are made for a path that runs out and does not turn back stand where its
names spell, one below the other. -/
theorem makeDirectoriesWithin_missing_ends (depth : Nat)
    (out : RunsOut world.files path here name rest) (straight : .up ∉ rest) :
    (makeDirectoriesWithin depth path).Ends world
      (fun _ after => ∃ names, rest = names.map .enter ∧
        Planted (here ++ name :: names) .directory world.files after.files)
      (fun _ after => ∃ names more, rest = names.map .enter ++ more ∧
        Paved (here ++ name :: names) world.files after.files) := by
  induction depth generalizing path rest with
  | zero => exact ⟨[], rest, rfl, .refl _ _⟩
  | succ depth ih =>
    have nonempty : path.bytes ≠ [] := fun empty =>
      out.moves_ne_nil (Path.moves_of_empty empty)
    have makes : ∀ here' name', RunsOut world.files path here' name' [] → ∀ after : World,
        after.files = world.files.place (here' ++ [name']) .directory → ∃ names : List Name,
          rest = names.map .enter ∧
            Planted (here ++ name :: names) .directory world.files after.files := by
      intro here' name' out' after made
      obtain ⟨rfl, rfl, rfl⟩ := out.unique out'
      exact ⟨[], rfl, made ▸ out.planted⟩
    refine makeDirectoriesWithin_step nonempty makes
      (fun isDirectory => absurd isDirectory (not_isDirectory_of_runsOut out))
      (fun _ => ⟨[], rest, rfl, .refl _ _⟩) ?_
    intro above found
    obtain ⟨isAbsolute, ⟨noMoves, -⟩ | ⟨last, moves⟩⟩ := Path.moves_parent? found
    · exact absurd noMoves out.moves_ne_nil
    · rcases List.eq_nil_or_concat' rest with rfl | ⟨front, last', rfl⟩
      · -- The directory above is there, so the path can only fail once more.
        refine (makeDirectoriesWithin_of_not_runsOut depth ?_).mono ?_ ?_
        · intro here' name' rest' again
          obtain ⟨used, few, walk⟩ := out.walk_above isAbsolute moves
          exact again.not_leads ⟨used, few, walk.lax⟩
        · rintro _ world ⟨rfl, -⟩
          refine (settle_last_ends out).mono ?_ ?_
          · intro _ after planted
            exact ⟨[], rfl, planted⟩
          · rintro _ _ rfl
            exact ⟨[], [], rfl, .refl _ _⟩
        · rintro _ _ rfl
          exact ⟨[], [], rfl, .refl _ _⟩
      · obtain ⟨outAbove, rfl⟩ := out.above isAbsolute moves
        have notUp : last ≠ .up := by
          rintro rfl
          exact straight (by simp)
        refine (ih outAbove fun member => straight (by simp [member])).mono ?_ ?_
        · rintro _ middle ⟨names, rfl, planted⟩
          refine (settle_next_ends outAbove planted isAbsolute.symm moves notUp).mono ?_ ?_
          · rintro _ after ⟨entry, rfl, whole⟩
            exact ⟨names ++ [entry], by simp, whole⟩
          · rintro _ _ rfl
            exact ⟨names, [last], rfl, planted.paved⟩
        · rintro _ after ⟨names, more, rfl, paved⟩
          exact ⟨names, more ++ [last], by simp, paved⟩

/-! ## The directory that a path reaches -/

theorem edit_makeDirectory_checked (path : Path) (world : World) :
    (edit (makeDirectory path)).Ends world (fun _ _ => checkPath path = .ok ())
      (fun _ _ => True) := by
  refine Action.ends_edit.2 ⟨fun step made => ?_, fun _ _ => trivial⟩
  obtain ⟨_, _, comes, -⟩ := FileSystem.lastStep_of_makeDirectory made
  exact (FileSystem.travel_of_lastStep comes).1

theorem accept_checked (path : Path) (fault : FileFault) (world : World) :
    (makeDirectoriesWithin.accept path fault).Ends world (fun _ _ => checkPath path = .ok ())
      (fun _ _ => True) := by
  refine (accept_isDirectory path fault world).mono ?_ fun _ _ _ => trivial
  rintro _ _ ⟨-, isDirectory⟩
  obtain ⟨location, located, -⟩ :=
    FileSystem.leads_of_examine (FileSystem.examine_of_isDirectory isDirectory)
  exact FileSystem.checkPath_of_resolve (FileSystem.locate_eq_ok_iff.1 located)

/-- A path whose directories could be made can be looked up, unless it is empty. -/
theorem makeDirectories_checked (path : Path) (world : World) :
    (makeDirectories path).Ends world
      (fun _ _ => path.bytes ≠ [] → checkPath path = .ok ()) (fun _ _ => True) := by
  rw [makeDirectories, makeDirectoriesWithin]
  split
  · next empty => exact fun nonempty => absurd empty nonempty
  · simp only [Action.ends_bind, Action.ends_attempt]
    refine (edit_makeDirectory_checked path world).mono (fun _ _ checked _ => checked) ?_
    intro fault failed _
    split
    · trivial
    · split
      · trivial
      · rw [Action.ends_bind]
        refine .of_forall (fun _ middle => ?_) fun _ _ => trivial
        simp only [makeDirectoriesWithin.settle, Action.ends_bind, Action.ends_attempt,
          Action.ends_pure]
        refine (edit_makeDirectory_checked path middle).mono (fun _ _ checked _ => checked) ?_
        intro fault _ _
        exact (accept_checked path fault _).mono (fun _ _ checked _ => checked)
          fun _ _ _ => trivial
    · exact (accept_checked path _ _).mono (fun _ _ checked _ => checked) fun _ _ _ => trivial

/-- What was made are first directories of the path, and what stands after a success is the one that
the path reaches. Only a working directory that was taken away does not stand. -/
theorem makeDirectories_reaches (straight : Straight world.files path) :
    (makeDirectories path).Ends world
      (fun _ after => Laid world.files path after.files ∧ ∃ place,
        world.files.Reaches path place ∧ after.files.Comes path place ∧
          (Planted place .directory world.files after.files ∨
            (after = world ∧ world.files.get? place ≠ some .directory)))
      (fun _ after => Laid world.files path after.files) := by
  by_cases runs : ∃ here name rest, RunsOut world.files path here name rest
  · obtain ⟨here, name, rest, out⟩ := runs
    refine (makeDirectoriesWithin_missing_ends _ out (straight _ _ _ out)).mono ?_ ?_
    · rintro _ after ⟨names, rfl, planted⟩
      exact ⟨.inr ⟨here, name, names, [], by rwa [List.append_nil], planted.paved⟩, _, .made out,
        out.walk_planted planted rfl, .inl planted⟩
    · rintro _ after ⟨names, more, rfl, paved⟩
      exact .inr ⟨here, name, names, more, out, paved⟩
  · have never : ∀ here name rest, ¬ RunsOut world.files path here name rest :=
      fun here name rest out => runs ⟨here, name, rest, out⟩
    refine (makeDirectoriesWithin_of_not_runsOut _ never).mono ?_ ?_
    · rintro _ world ⟨rfl, isDirectory⟩
      have comes : ∃ place, world.files.Comes path place := by
        by_cases empty : path.bytes = []
        · refine ⟨world.files.startOf path, 0, Nat.zero_le _, ?_⟩
          rw [Path.moves_of_empty empty]
          exact .arrive
        · exact FileSystem.comes_of_isDirectory (isDirectory empty)
      obtain ⟨place, comes⟩ := comes
      refine ⟨.refl _ _, place, .there comes, comes, ?_⟩
      by_cases stands : world.files.get? place = some .directory
      · exact .inl (.of_standing stands)
      · exact .inr ⟨rfl, stands⟩
    · rintro _ _ rfl
      exact .refl _ _

end ImageStaging.Files
