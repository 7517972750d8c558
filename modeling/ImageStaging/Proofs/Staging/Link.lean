import ImageStaging.Proofs.Staging.Reset

/-!
# Resetting by way of a link

A slash or a dot behind the name of a link asks for the directory that the link leads to. A reset
then empties that directory, and fails, since it cannot take the link away as a directory.
-/

namespace ImageStaging

open FileSystem (Emptied checkPath)

namespace FileSystem

variable {files : FileSystem} {name target : Name} {stays : List PathStep} {purpose : Purpose}
  {wantDirectory : Bool}

theorem descend_stays (still : ∀ step ∈ stays, step = .stay)
    (onLink : Walk → Path → Except FileFault Found) (here : Location) :
    descend files onLink purpose wantDirectory here stays = .ok (.present here) := by
  induction stays with
  | nil => rfl
  | cons step rest ih =>
    obtain rfl := still step List.mem_cons_self
    exact ih fun other member => still other (List.mem_cons_of_mem _ member)

section Linked

variable (isLink : files.get? [name] = some (.link target.toPath))
  (isDirectory : files.get? [target] = some .directory) (still : ∀ step ∈ stays, step = .stay)
include isLink isDirectory still

/-- The link is followed even by a lookup that would stop at it. -/
theorem travel_through_link (looks : purpose ≠ .creation)
    (follows : purpose = .entry → stays ≠ [] ∨ wantDirectory = true) :
    travel files linkLimit ⟨[], .enter name :: stays, purpose, wantDirectory⟩ =
      .ok (.present [target]) := by
  -- A step behind the name or a slash makes the lookup follow the link.
  have notLast : (stays.isEmpty && decide (purpose = .entry) && !wantDirectory) = false := by
    by_cases isEntry : purpose = .entry
    · rcases follows isEntry with goesOn | wants
      · simp [goesOn]
      · simp [wants]
    · simp [isEntry]
  have onward : ∀ want, travel files 39 ⟨[], .enter target :: stays, purpose, want⟩ =
      .ok (.present [target]) := by
    intro want
    simp only [travel, descend, looks, decide_false, Bool.and_false, Bool.false_eq_true, if_false,
      List.nil_append, isDirectory]
    exact descend_stays still _ _
  have through : Walk.through ⟨[], stays, purpose, wantDirectory⟩ target.toPath =
      ⟨[], .enter target :: stays, purpose, wantDirectory⟩ := by
    simp [Walk.through]
  show travel files (39 + 1) _ = _
  rw [travel]
  simp only [descend, looks, decide_false, Bool.and_false, Bool.false_eq_true, if_false,
    List.nil_append, isLink, notLast, through, onward]

/-- The link cannot be taken away as a directory. -/
theorem removeDirectory_through_link {path : Path} (checked : checkPath path = .ok ())
    (isAbsolute : path.isAbsolute = true) (steps : path.steps = .enter name :: stays) :
    ∃ fault, fault ≠ .notFound ∧ removeDirectory path files = .error fault := by
  have startOf : files.startOf path = [] := if_pos isAbsolute
  have lastStep : files.lastStep path =
      .ok (if stays = [] then .named [] name else .stay) := by
    by_cases last : stays = []
    · simp [FileSystem.lastStep, checked, steps, startOf, last]
      rfl
    · -- With a dot at the end the directory is asked to go by that name.
      have ends : (PathStep.enter name :: stays).getLast? = some .stay := by
        rw [List.getLast?_cons_of_ne_nil last, List.getLast?_eq_some_getLast last,
          still _ (List.getLast_mem last)]
      have front : (PathStep.enter name :: stays).dropLast = .enter name :: stays.dropLast :=
        List.dropLast_cons_of_ne_nil last
      have before : ∀ step ∈ stays.dropLast, step = .stay := fun step member =>
        still step (stays.dropLast_subset member)
      have onward : travel files linkLimit ⟨[], .enter name :: stays.dropLast, .target, true⟩ =
          .ok (.present [target]) :=
        travel_through_link isLink isDirectory before (by simp) (by simp)
      rw [FileSystem.lastStep, checked, steps, startOf, ends, front, if_neg last]
      simp only [onward, bind, Except.bind, pure, Except.pure]
  rw [removeDirectory, lastStep]
  split
  · refine ⟨.notADirectory, by simp, ?_⟩
    simp only [bind, Except.bind, List.nil_append, isLink]
    rfl
  · exact ⟨.invalidArgument, by simp, rfl⟩

end Linked

end FileSystem

/-- Nothing is left of what was in the directory that the link leads to. -/
theorem Staging.reset_through_link_ends {world : World} {path : Path} {name target : Name}
    {stays : List PathStep} (isLink : world.files.get? [name] = some (.link target.toPath))
    (isDirectory : world.files.get? [target] = some .directory)
    (still : ∀ step ∈ stays, step = .stay) (checked : checkPath path = .ok ())
    (isAbsolute : path.isAbsolute = true) (steps : path.steps = .enter name :: stays)
    (demands : stays ≠ [] ∨ path.endsWithSlash = true) :
    (Staging.reset path).Ends world (fun _ _ => False)
      (fun _ after => Emptied [target] world.files after.files) := by
  have startOf : world.files.startOf path = [] := if_pos isAbsolute
  have located : world.files.locate .entry path = .ok [target] := by
    rw [FileSystem.locate_eq_ok_iff, FileSystem.resolve_eq, checked, startOf, steps]
    exact FileSystem.travel_through_link isLink isDirectory still (by simp) fun _ => demands
  have examined : world.files.examineLink path = .ok .directory := by
    rw [FileSystem.examineLink, located]
    simp [bind, Except.bind, pure, Except.pure, isDirectory]
  unfold Staging.reset Files.removeTree
  simp only [Action.ends_bind, Action.ends_get, examined, if_true, Action.ends_blaming,
    Action.ends_look, located]
  refine ⟨?_, fun _ impossible => by cases impossible⟩
  rintro _ ⟨⟩
  refine (Files.removeChildren_ends _).mono ?_ fun _ _ failed => failed.elim
  intro _ after emptied
  have outside : ∀ other : Name, after.files.get? [other] = world.files.get? [other] := by
    intro other
    refine emptied.get? _ fun inner => inner.2 ?_
    exact (List.cons_prefix_cons.1 inner.1).1 ▸ rfl
  obtain ⟨first, notMissing, failed⟩ := FileSystem.removeDirectory_through_link
    ((outside name).trans isLink) ((outside target).trans isDirectory) still checked isAbsolute
    steps
  simp only [Action.ends_attempt, Action.ends_edit, failed]
  refine ⟨fun _ impossible => (by cases impossible), ?_⟩
  intro fault same
  obtain rfl := Except.error.inj same
  cases first with
  | notFound => exact absurd rfl notMissing
  | _ => exact emptied

end ImageStaging
