import ImageStaging.Proofs.FileSystem.Missing
import ImageStaging.Proofs.Path.Ending

/-!
# Places that are free

A place is free if only directories stand at it and above it. What a path that leads down to such
a place can be used for is known: the first name that is missing tells what a lookup answers, and
the entry can be made where the directory above it stands.
-/

namespace ImageStaging.FileSystem

variable {start files other : FileSystem} {base path : Path} {root here middle location : Location}
  {front names : List Name} {name last : Name} {used links : Nat} {purpose : Purpose}
  {wantDirectory : Bool}

/-! ## A name that is missing on the way -/

theorem travel_stay (links : Nat) (here : Location) (ahead : List PathStep) :
    travel files links ⟨here, .stay :: ahead, purpose, wantDirectory⟩ =
      travel files links ⟨here, ahead, purpose, wantDirectory⟩ := by
  cases links <;> rfl

/-- What asks for nothing can be left out in front of a move. -/
theorem travel_skip {before rest : List PathStep} {step : PathStep}
    (moves : before.filter PathStep.isMove = step :: rest) (links : Nat) (here : Location)
    (more : List PathStep) : ∃ before', before'.filter PathStep.isMove = rest ∧
      travel files links ⟨here, before ++ more, purpose, wantDirectory⟩ =
        travel files links ⟨here, step :: (before' ++ more), purpose, wantDirectory⟩ := by
  induction before with
  | nil => cases moves
  | cons other before ih =>
    by_cases isMove : other.isMove = true
    · rw [List.filter_cons_of_pos isMove] at moves
      obtain ⟨rfl, same⟩ := List.cons.inj moves
      exact ⟨before, same, rfl⟩
    · rw [List.filter_cons_of_neg isMove] at moves
      obtain ⟨before', same, skipped⟩ := ih moves
      have isStay : other = .stay := by cases other <;> simp [PathStep.isMove] at isMove ⊢
      rw [isStay, List.cons_append, travel_stay]
      exact ⟨before', same, skipped⟩

theorem travel_skip_all {before : List PathStep} (quiet : before.filter PathStep.isMove = [])
    (links : Nat) (here : Location) (more : List PathStep) :
    travel files links ⟨here, before ++ more, purpose, wantDirectory⟩ =
      travel files links ⟨here, more, purpose, wantDirectory⟩ := by
  induction before with
  | nil => rfl
  | cons other before ih =>
    have notMove := List.filter_eq_nil_iff.1 quiet other List.mem_cons_self
    have isStay : other = .stay := by cases other <;> simp [PathStep.isMove] at notMove ⊢
    rw [isStay, List.filter_cons_of_neg (by simp [PathStep.isMove])] at quiet
    rw [isStay, List.cons_append, travel_stay, ih quiet]

/-- A lookup stops at a name that is missing in a directory that it comes to. -/
theorem travel_missing {before : List PathStep} (after : List PathStep)
    (allowed : purpose = .creation → wantDirectory = false) (few : used ≤ links)
    (walk : Walks files true used here (before.filter PathStep.isMove) (.present middle))
    (nothing : files.get? (middle ++ [name]) = none) :
    travel files links ⟨here, before ++ .enter name :: after, purpose, wantDirectory⟩ =
      if after.isEmpty then .ok (.absent middle name) else .error .notFound := by
  have noDemand (ahead : List PathStep) :
      (ahead.isEmpty && wantDirectory && decide (purpose = .creation)) = false := by
    by_cases creates : purpose = .creation
    · simp [allowed creates]
    · simp [creates]
  generalize isFront : before.filter PathStep.isMove = first at walk
  generalize ending : Found.present middle = found at walk
  induction walk generalizing links before with
  | arrive =>
    obtain rfl := Found.present.inj ending
    rw [travel_skip_all isFront]
    cases links <;> simp only [travel, descend, noDemand, nothing, Bool.false_eq_true, if_false]
  | up _ ih =>
    obtain ⟨before', same, skipped⟩ := @travel_skip files purpose wantDirectory _ _ _ isFront links
      _ (.enter name :: after)
    rw [skipped, ← ih few same ending]
    cases links <;> rfl
  | enter isDirectory _ ih =>
    obtain ⟨before', same, skipped⟩ := @travel_skip files purpose wantDirectory _ _ _ isFront links
      _ (.enter name :: after)
    rw [skipped, ← ih few same ending]
    cases links <;>
      simp only [travel, descend, noDemand, isDirectory, Bool.false_eq_true, if_false]
  | other _ _ _ lax => cases lax
  | missing => cases ending
  | @link _ _ _ target ahead _ stands _ ih =>
    obtain ⟨left, rfl⟩ := Nat.exists_eq_add_of_lt few
    obtain ⟨before', same, skipped⟩ := @travel_skip files purpose wantDirectory _ _ _ isFront _ _
      (.enter name :: after)
    rw [skipped]
    have goesOn : (before' ++ .enter name :: after).isEmpty = false := by simp
    have through : (target.steps ++ before').filter PathStep.isMove =
        target.moves ++ ahead := by
      rw [List.filter_append, same]
      rfl
    rw [← ih (Nat.le_of_lt_succ few) through ending]
    simp only [travel, descend, stands, goesOn, Walk.through, Bool.false_and, Bool.or_false,
      Bool.false_eq_true, if_false, List.append_assoc]
    rfl

/-! ## Free places -/

/-- At a location and above it stand only directories, if anything. -/
def Free (files : FileSystem) (location : Location) : Prop :=
  ∀ above, above <+: location → files.get? above = none ∨ files.get? above = some .directory

namespace Free

theorem above (free : files.Free location) (within : here <+: location) : files.Free here :=
  fun place further => free place (further.trans within)

theorem of_directory (isDirectory : files.get? location = some .directory) :
    files.Free location := by
  intro above within
  by_cases same : above = location
  · exact .inr (same ▸ isDirectory)
  · exact .inr (get?_ancestor within same (by rw [isDirectory]; rfl))

/-- A place stays free when the directories above another are made. -/
theorem of_planted (free : files.Free location)
    (planted : Planted here .directory files other) : other.Free location := by
  intro place within
  rw [planted.get?]
  split
  · exact .inr rfl
  · split
    · exact .inr rfl
    · exact free place within

/-- On the way down to where nothing is, a first name is missing. -/
theorem exists_missing (free : files.Free (here ++ names))
    (isDirectory : files.get? here = some .directory) (nothing : files.get? (here ++ names) = none) :
    ∃ kept name rest, names = kept ++ name :: rest ∧
      files.get? (here ++ kept) = some .directory ∧
        files.get? (here ++ kept ++ [name]) = none := by
  induction names using List.reverseRecOn with
  | nil =>
    rw [List.append_nil, isDirectory] at nothing
    cases nothing
  | append_singleton front last ih =>
    rw [← List.append_assoc] at free nothing
    rcases free (here ++ front) (List.prefix_append _ _) with missing | stands
    · obtain ⟨kept, name, rest, rfl, found⟩ := ih (free.above (List.prefix_append _ _)) missing
      exact ⟨kept, name, rest ++ [last], by simp, found⟩
    · exact ⟨front, last, [], rfl, stands, nothing⟩

end Free

/-- Nothing stands at a location, and only directories, if anything, above it. -/
structure Vacant (files : FileSystem) (location : Location) : Prop where
  nothing : files.get? location = none
  free : files.Free location

theorem Vacant.child (isDirectory : files.get? location = some .directory)
    (nothing : files.get? (location ++ [name]) = none) : files.Vacant (location ++ [name]) := by
  refine ⟨nothing, fun above within => ?_⟩
  rcases List.prefix_concat_iff.1 within with rfl | further
  · exact .inl nothing
  · exact Free.of_directory isDirectory above further

/-! ## What a path to a free place can be used for -/

/-- The steps before the last name lead to where the names before it do. -/
theorem steps_of_descends (descends : Path.Descends base (front ++ [last]) path)
    (notDot : ¬ path.EndsInDot) : ∃ before, path.steps = before ++ [.enter last] ∧
      before.filter PathStep.isMove = base.moves ++ front.map .enter := by
  refine Path.steps_of_not_endsInDot notDot ?_
  rw [descends.moves, List.map_append, List.append_assoc]
  rfl

/-- What a path can be used for, its parent can too, as long as that asks for a name. -/
theorem parent_of_descends {parent : Path}
    (descends : Path.Descends base (front ++ [last]) path) (proper : front ≠ [])
    (checked : checkPath path = .ok ()) (found : path.parent? = some parent) :
    Path.Descends base front parent ∧ ¬ parent.EndsInDot ∧ checkPath parent = .ok () := by
  have descendsParent := descends.parent found
  have moves : parent.moves ≠ [] := by
    rw [descendsParent.moves]
    simp [proper]
  exact ⟨descendsParent, Path.not_endsInDot_parent? found moves, checkPath_of_prefix
    (Path.prefix_parent? found) (descendsParent.bytes_ne_nil proper) checked⟩

namespace Confined

variable (confined : Confined start base root files)
include confined

theorem walk_down (isDirectory : files.get? (root ++ names) = some .directory) :
    ∃ used ≤ linkLimit, Walks files true used (files.startOf base) (base.moves ++ names.map .enter)
      (.present (root ++ names)) := by
  obtain ⟨used, few, walk⟩ := confined.walk_base
  exact ⟨used + 0, few, walk.append (Walks.down isDirectory)⟩

theorem isDirectory_of_standing (descends : Path.Descends base names path)
    (checked : checkPath path = .ok ())
    (isDirectory : files.get? (root ++ names) = some .directory) :
    files.isDirectory path = true := by
  obtain ⟨used, few, walk⟩ := confined.walk_down isDirectory
  have leads : files.Leads path (.present (root ++ names)) := by
    refine ⟨used, few, ?_⟩
    rw [descends.startOf, descends.moves]
    exact walk.lax
  rw [FileSystem.isDirectory,
    examine_of_locate (leads.locate_directory isDirectory checked) isDirectory]

variable (descends : Path.Descends base (front ++ [last]) path) (notDot : ¬ path.EndsInDot)
include descends notDot

variable (checked : checkPath path = .ok ())
include checked

theorem lastStep_of_front (isDirectory : files.get? (root ++ front) = some .directory) :
    files.lastStep path = .ok (.named (root ++ front) last) := by
  obtain ⟨before, steps, moves⟩ := steps_of_descends descends notDot
  obtain ⟨used, few, walk⟩ := confined.walk_down isDirectory
  rw [← moves, ← descends.startOf] at walk
  have answers : Answers files
      (travel files linkLimit ⟨files.startOf path, before, .target, true⟩)
      (.present (root ++ front)) := travel_of_walks few walk.lax
  rw [lastStep, checked, steps, List.getLast?_concat, List.dropLast_concat]
  rcases answers with answer | ⟨notDirectory, -⟩
  · rw [answer]
    exact if_pos isDirectory
  · exact absurd isDirectory notDirectory

theorem lastStep_of_missing (free : files.Free (root ++ front))
    (nothing : files.get? (root ++ front) = none) : files.lastStep path = .error .notFound := by
  obtain ⟨before, steps, moves⟩ := steps_of_descends descends notDot
  obtain ⟨kept, name, rest, rfl, isDirectory, missing⟩ :=
    free.exists_missing confined.isDirectory nothing
  obtain ⟨used, few, walk⟩ := confined.walk_down isDirectory
  obtain ⟨first, more, rfl, toKept, beyond⟩ : ∃ first more, before = first ++ .enter name :: more ∧
      first.filter PathStep.isMove = base.moves ++ kept.map .enter ∧
        more.filter PathStep.isMove = rest.map .enter := by
    rw [List.map_append, ← List.append_assoc, List.filter_eq_append_iff] at moves
    obtain ⟨first, second, rfl, toKept, beyond⟩ := moves
    rw [List.map_cons, List.filter_eq_cons_iff] at beyond
    obtain ⟨quiet, more, rfl, silent, -, beyond⟩ := beyond
    refine ⟨first ++ quiet, more, by simp, ?_, beyond⟩
    rw [List.filter_append, toKept, List.filter_eq_nil_iff.2 silent, List.append_nil]
  rw [← toKept, ← descends.startOf] at walk
  have answer := @travel_missing files _ _ name used linkLimit .target true first more nofun few
    walk missing
  rw [lastStep, checked, steps, List.getLast?_concat, List.dropLast_concat]
  simp only [bind, Except.bind, answer]
  cases more <;> rfl

theorem makeDirectory_of_front (isDirectory : files.get? (root ++ front) = some .directory) :
    makeDirectory path files = if (files.get? (root ++ (front ++ [last]))).isSome then
      .error .alreadyExists else .ok (.place (root ++ (front ++ [last])) .directory) := by
  rw [makeDirectory, confined.lastStep_of_front descends notDot checked isDirectory]
  simp only [bind, Except.bind, List.append_assoc]
  rfl

theorem makeDirectory_of_missing (free : files.Free (root ++ front))
    (nothing : files.get? (root ++ front) = none) :
    makeDirectory path files = .error .notFound := by
  rw [makeDirectory, confined.lastStep_of_missing descends notDot checked free nothing]
  rfl

/-- A file can be written where nothing is, if the path does not ask for a directory. -/
theorem writable_of_front (noSlash : path.endsWithSlash = false)
    (isDirectory : files.get? (root ++ front) = some .directory)
    (nothing : files.get? (root ++ (front ++ [last])) = none) :
    files.writable path = .ok (root ++ (front ++ [last]), none) := by
  obtain ⟨before, steps, moves⟩ := steps_of_descends descends notDot
  obtain ⟨used, few, walk⟩ := confined.walk_down isDirectory
  rw [← moves, ← descends.startOf] at walk
  rw [← List.append_assoc] at nothing ⊢
  have answer := @travel_missing files _ _ last used linkLimit .creation false before []
    (fun _ => rfl) few walk nothing
  rw [writable, resolve_eq, checked, steps, noSlash]
  simp only [Except.bind, bind, answer]
  exact if_pos isDirectory

end Confined

end ImageStaging.FileSystem
