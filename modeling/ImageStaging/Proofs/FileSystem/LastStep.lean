import ImageStaging.Proofs.FileSystem.Region

/-!
# The last step of a path

An edit looks up all of a path but its last step and then acts on that name in the directory it
came to. For a name joined to a path the two parts are told apart exactly; for other spellings
only what a success says is needed.
-/

namespace ImageStaging.FileSystem

variable {files : FileSystem} {path : Path} {location : Location} {name : Name}

theorem get?_dropLast_of_directory {files : FileSystem} {location : Location}
    (isDirectory : files.get? location = some .directory) :
    files.get? location.dropLast = some .directory := by
  by_cases atRoot : location = []
  · rw [atRoot, List.dropLast_nil, get?_root]
  · exact get?_parent_of_isSome atRoot (by rw [isDirectory]; rfl)

namespace Walks

variable {strict : Bool} {used : Nat} {here : Location} {ahead : List PathStep} {found : Found}

/-- A walk from a directory ends at an entry, and a strict one at a directory. -/
theorem stands (walk : Walks files strict used here ahead (.present location))
    (starts : files.get? here = some .directory) :
    ∃ entry, files.get? location = some entry ∧ (strict = true → entry = .directory) := by
  generalize ending : Found.present location = found at walk
  induction walk with
  | arrive =>
    cases ending
    exact ⟨_, starts, fun _ => rfl⟩
  | up _ ih => exact ih (get?_dropLast_of_directory starts) ending
  | enter isDirectory _ ih => exact ih isDirectory ending
  | other stands _ _ lax =>
    cases ending
    exact ⟨_, stands, fun isStrict => by cases lax.symm.trans isStrict⟩
  | missing => cases ending
  | link _ _ ih =>
    refine ih ?_ ending
    unfold linkStart
    split
    · exact get?_root files
    · exact starts

theorem isDirectory (walk : Walks files true used here ahead (.present location))
    (starts : files.get? here = some .directory) : files.get? location = some .directory := by
  obtain ⟨entry, stands, same⟩ := walk.stands starts
  rw [stands, same rfl]

/-- Before each of its moves a walk has come to a directory. -/
theorem front {next : PathStep} {more steps : List PathStep}
    (walk : Walks files strict used here steps found) (whole : steps = ahead ++ next :: more) :
    ∃ left ≤ used, ∃ middle, Walks files true left here ahead (.present middle) := by
  induction walk generalizing ahead with
  | arrive => simp at whole
  | up _ ih =>
    cases ahead with
    | nil => exact ⟨0, Nat.zero_le _, _, .arrive⟩
    | cons step rest =>
      obtain ⟨rfl, rfl⟩ := List.cons.inj whole
      obtain ⟨left, few, middle, walk⟩ := ih rfl
      exact ⟨left, few, middle, .up walk⟩
  | enter isDirectory _ ih =>
    cases ahead with
    | nil => exact ⟨0, Nat.zero_le _, _, .arrive⟩
    | cons step rest =>
      obtain ⟨rfl, rfl⟩ := List.cons.inj whole
      obtain ⟨left, few, middle, walk⟩ := ih rfl
      exact ⟨left, few, middle, .enter isDirectory walk⟩
  | other =>
    cases ahead with
    | nil => exact ⟨0, Nat.zero_le _, _, .arrive⟩
    | cons step rest => simp at whole
  | missing =>
    cases ahead with
    | nil => exact ⟨0, Nat.zero_le _, _, .arrive⟩
    | cons step rest => simp at whole
  | link stands _ ih =>
    cases ahead with
    | nil => exact ⟨0, Nat.zero_le _, _, .arrive⟩
    | cons step rest =>
      obtain ⟨rfl, rfl⟩ := List.cons.inj whole
      obtain ⟨left, few, middle, walk⟩ := ih (List.append_assoc _ _ _).symm
      exact ⟨left + 1, Nat.succ_le_succ few, middle, .link stands walk⟩

/-- A walk that comes to an entry has come to a directory before each of its moves, and a name to
enter stands in that directory. -/
theorem before {next : PathStep} {more steps : List PathStep}
    (walk : Walks files strict used here steps (.present location))
    (whole : steps = ahead ++ next :: more) :
    ∃ left ≤ used, ∃ middle, Walks files true left here ahead (.present middle) ∧
      ∀ name, next = .enter name → (files.get? (middle ++ [name])).isSome := by
  obtain ⟨left, few, middle, front⟩ := walk.front whole
  refine ⟨left, few, middle, front, ?_⟩
  rintro name rfl
  rw [whole] at walk
  obtain ⟨_, -, last⟩ := front.split walk
  cases last with
  | enter isDirectory => rw [isDirectory]; rfl
  | other stands => rw [stands]; rfl
  | link stands => rw [stands]; rfl

end Walks

/-! ## A name joined to a path -/

/-- The last step of a walk that comes to an entry, from where the walk before it came to. -/
def finish (files : FileSystem) (last : PathStep) : Found → Except FileFault Found
  | .present directory =>
    descend files (fun _ _ => .error .tooManyLinks) .entry false directory [last]
  | .absent _ _ => .error .notFound

theorem finish_enter (files : FileSystem) (name : Name) (directory : Location) :
    files.finish (.enter name) (.present directory) =
      .ok (if (files.get? (directory ++ [name])).isSome then .present (directory ++ [name])
        else .absent directory name) := by
  simp only [finish, descend]
  cases files.get? (directory ++ [name]) with
  | none => rfl
  | some entry => cases entry <;> rfl

/-- The step decides the end of a walk: it is the last one, or one that cannot be taken. -/
def Decides (step : PathStep) (more : List PathStep) (wantDirectory : Bool) : Prop :=
  step = .impossible ∨ (more = [] ∧ wantDirectory = false)

section Deciding

variable {last : PathStep} {more : List PathStep} {wantDirectory : Bool}
  (decides : Decides last more wantDirectory)
include decides

theorem descend_entry_append {onLink onLink' : Walk → Path → Except FileFault Found}
    (handsOn : ∀ here ahead target,
      onLink ⟨here, ahead ++ last :: more, .entry, wantDirectory⟩ target =
        (onLink' ⟨here, ahead, .target, true⟩ target).bind (files.finish last))
    (here : Location) (ahead : List PathStep) :
    descend files onLink .entry wantDirectory here (ahead ++ last :: more) =
      (descend files onLink' .target true here ahead).bind (files.finish last) := by
  induction ahead generalizing here with
  | nil =>
    rcases decides with rfl | ⟨rfl, rfl⟩
    · simp [descend, Except.bind, finish]
    · simp only [List.nil_append, descend, Except.bind, finish]
      cases last with
      | stay => rfl
      | up => rfl
      | impossible => rfl
      | enter name =>
        simp only [descend]
        cases files.get? (here ++ [name]) with
        | none => rfl
        | some entry => cases entry <;> rfl
  | cons step ahead ih =>
    cases step with
    | stay => exact ih here
    | up => exact ih here.dropLast
    | impossible => simp [descend, Except.bind]
    | enter other =>
      have goesOn : (ahead ++ last :: more).isEmpty = false := by simp
      simp only [List.cons_append, descend, goesOn, Bool.false_and, Bool.false_eq_true, if_false]
      cases files.get? (here ++ [other]) with
      | none => cases ahead <;> rfl
      | some entry =>
        cases entry with
        | directory => exact (ih (here ++ [other])).trans (by simp)
        | link target => exact (handsOn here ahead target).trans (by simp)
        | file content executable => simp [Except.bind]
        | fullDevice => simp [Except.bind]

theorem travel_entry_append (links : Nat) (here : Location) (ahead : List PathStep) :
    travel files links ⟨here, ahead ++ last :: more, .entry, wantDirectory⟩ =
      (travel files links ⟨here, ahead, .target, true⟩).bind (files.finish last) := by
  induction links generalizing here ahead with
  | zero => exact descend_entry_append decides (fun _ _ _ => rfl) here ahead
  | succ links ih =>
    refine descend_entry_append decides ?_ here ahead
    intro here ahead target
    have goesOn : (ahead ++ last :: more).isEmpty = false := by simp
    simp only [Walk.through, Bool.true_or, goesOn, Bool.false_and, Bool.or_false]
    rw [← List.append_assoc]
    exact ih _ _

end Deciding

/-- Only the empty path is turned away as if it led nowhere. -/
theorem checkPath_ne_notFound (nonempty : path.bytes ≠ []) : checkPath path ≠ .error .notFound := by
  unfold checkPath
  rw [if_neg nonempty]
  split
  · simp
  · split <;> simp

/-- A path that is too long cannot be looked up. -/
theorem locate_of_long {purpose : Purpose} (long : pathLimit < path.bytes.length) :
    ∃ fault, fault ≠ .notFound ∧ files.locate purpose path = .error fault := by
  have nonempty : path.bytes ≠ [] := by
    intro empty
    rw [empty, List.length_nil] at long
    omega
  cases checked : checkPath path with
  | error fault =>
    refine ⟨fault, ?_, locate_of_checkPath files purpose checked⟩
    rintro rfl
    exact checkPath_ne_notFound nonempty checked
  | ok =>
    rw [checkPath, if_neg nonempty, if_pos long] at checked
    split at checked <;> cases checked

section Joined

variable (leads : files.Leads path (.present location))
  (isDirectory : files.get? location = some .directory)
include leads isDirectory

theorem travel_of_leads :
    travel files linkLimit ⟨files.startOf path, path.steps, .target, true⟩ =
      .ok (.present location) := by
  obtain ⟨used, few, walk⟩ := leads
  have answers : Answers files
      (travel files linkLimit ⟨files.startOf path, path.steps, .target, true⟩)
      (.present location) := travel_of_walks few walk
  rcases answers with answer | ⟨notDirectory, _⟩
  · exact answer
  · exact absurd isDirectory notDirectory

/-- An edit of a name in a directory acts there, if the path can be looked up at all. -/
theorem lastStep_join :
    files.lastStep (path.join name.toPath) =
      (checkPath (path.join name.toPath)).map fun _ => .named location name := by
  have steps : (path.join name.toPath).steps = path.steps ++ [.enter name] := by
    rw [Path.steps_join (Name.isAbsolute_toPath name), Name.steps_toPath]
  simp only [lastStep, steps, List.getLast?_append, List.getLast?_singleton, Option.some_or,
    List.dropLast_concat, Path.startOf_join files (Name.isAbsolute_toPath name),
    travel_of_leads leads isDirectory]
  cases checkPath (path.join name.toPath) with
  | error fault => rfl
  | ok => exact if_pos isDirectory

/-- A name in a directory is looked up there, links at that name not being followed. -/
theorem locate_entry_join :
    files.locate .entry (path.join name.toPath) =
      (checkPath (path.join name.toPath)).bind fun _ =>
        if (files.get? (location ++ [name])).isSome then .ok (location ++ [name])
        else .error .notFound := by
  have steps : (path.join name.toPath).steps = path.steps ++ [.enter name] := by
    rw [Path.steps_join (Name.isAbsolute_toPath name), Name.steps_toPath]
  rw [locate, resolve_eq, steps,
    Path.endsWithSlash_join (Name.isAbsolute_toPath name) (Name.bytes_toPath_ne_nil name),
    Name.endsWithSlash_toPath, Path.startOf_join files (Name.isAbsolute_toPath name),
    travel_entry_append (.inr ⟨rfl, rfl⟩), travel_of_leads leads isDirectory]
  cases checkPath (path.join name.toPath) with
  | error fault => rfl
  | ok =>
    simp only [Except.bind, finish_enter]
    split <;> rfl

/-- A path with a step that no entry can take names nothing in a directory. -/
theorem locate_entry_impossible {path' : Path} {more : List PathStep}
    (relative : path'.isAbsolute = false) (nonempty : path'.bytes ≠ [])
    (steps : path'.steps = .impossible :: more) :
    ∃ fault, fault ≠ .notFound ∧ files.locate .entry (path.join path') = .error fault := by
  rw [locate, resolve_eq]
  cases checked : checkPath (path.join path') with
  | error fault =>
    refine ⟨fault, ?_, rfl⟩
    rintro rfl
    exact checkPath_ne_notFound (Path.bytes_join_ne_nil nonempty) checked
  | ok =>
    refine ⟨.nameTooLong, by simp, ?_⟩
    rw [Path.steps_join relative, steps, Path.startOf_join files relative,
      travel_entry_append (.inl rfl), travel_of_leads leads isDirectory]
    rfl

end Joined

/-! ## Other spellings -/

theorem travel_of_lastStep {directory : Location}
    (comes : files.lastStep path = .ok (.named directory name)) :
    checkPath path = .ok () ∧ path.steps = path.steps.dropLast ++ [.enter name] ∧
      travel files linkLimit ⟨files.startOf path, path.steps.dropLast, .target, true⟩ =
        .ok (.present directory) ∧ files.get? directory = some .directory := by
  rw [lastStep] at comes
  cases checked : checkPath path with
  | error fault => rw [checked] at comes; cases comes
  | ok =>
    rw [checked] at comes
    cases ends : path.steps.getLast? with
    | none => rw [ends] at comes; cases comes
    | some last =>
      rw [ends] at comes
      cases answer : travel files linkLimit
          ⟨files.startOf path, path.steps.dropLast, .target, true⟩ with
      | error fault => rw [answer] at comes; cases comes
      | ok found =>
        rw [answer] at comes
        cases found with
        | absent => cases comes
        | present place =>
          cases last with
          | stay => cases comes
          | up => cases comes
          | impossible => cases comes
          | enter other =>
            simp only [bind, Except.bind] at comes
            split at comes
            · next isDirectory =>
              obtain ⟨rfl, rfl⟩ := LastStep.named.inj (Except.ok.inj comes)
              exact ⟨rfl, (List.dropLast_append_getLast? _ ends).symm, rfl, isDirectory⟩
            · cases comes

theorem moves_of_steps {before : List PathStep} (steps : path.steps = before ++ [.enter name]) :
    path.moves = before.filter PathStep.isMove ++ [.enter name] := by
  rw [Path.moves, steps, List.filter_append]
  rfl

theorem lastStep_named {directory : Location}
    (comes : files.lastStep path = .ok (.named directory name)) :
    files.get? directory = some .directory ∧ ∃ used ≤ linkLimit, ∃ before,
      path.moves = before ++ [.enter name] ∧
        Walks files true used (files.startOf path) before (.present directory) := by
  obtain ⟨-, steps, answer, isDirectory⟩ := travel_of_lastStep comes
  obtain ⟨used, few, walk⟩ := walks_of_travel (by simp) answer
  exact ⟨isDirectory, used, few, _, moves_of_steps steps, walk⟩

/-- The entry that an edit acts on is looked up at the same place in another file system, if nothing
is different on the way to its directory. -/
theorem locate_entry_of_lastStep {other : FileSystem} {directory : Location}
    {before : List PathStep} (comes : files.lastStep path = .ok (.named directory name))
    (noSlash : path.endsWithSlash = false) (moves : path.moves = before ++ [.enter name])
    (sameDirectory : other.workingDirectory = files.workingDirectory)
    (agree : ∀ seen ∈ files.trail linkLimit (files.startOf path) before,
      other.get? seen = files.get? seen) (stands : (other.get? (directory ++ [name])).isSome) :
    other.locate .entry path = .ok (directory ++ [name]) := by
  obtain ⟨checked, steps, answer, -⟩ := travel_of_lastStep comes
  obtain ⟨rfl, -⟩ := List.append_inj' (moves.symm.trans (moves_of_steps steps)) rfl
  have still : travel other linkLimit ⟨files.startOf path, path.steps.dropLast, .target, true⟩ =
      .ok (.present directory) := by
    refine (travel_congr fun seen member => sameKind_of_eq (agree seen ?_)).trans answer
    rwa [trail_filter]
  rw [locate, resolve_eq, checked, startOf_congr sameDirectory, steps,
    travel_entry_append (.inr ⟨rfl, noSlash⟩), still]
  simp only [Except.bind, finish_enter, stands, if_true]
  rfl

/-- A lookup of all but the last step cannot miss anything on the way to an entry. -/
theorem lastStep_ne_notFound (leads : files.Leads path (.present location))
    (nonempty : path.bytes ≠ []) : files.lastStep path ≠ .error .notFound := by
  obtain ⟨used, few, walk⟩ := leads
  intro missing
  rw [lastStep] at missing
  cases checked : checkPath path with
  | error fault =>
    rw [checked] at missing
    obtain rfl : fault = .notFound := Except.error.inj missing
    exact checkPath_ne_notFound nonempty checked
  | ok =>
    rw [checked] at missing
    cases ends : path.steps.getLast? with
    | none => rw [ends] at missing; cases missing
    | some last =>
      rw [ends] at missing
      have whole := List.dropLast_append_getLast? _ ends
      have moves : path.moves =
          path.steps.dropLast.filter PathStep.isMove ++ [last].filter PathStep.isMove := by
        rw [← List.filter_append, whole, Path.moves]
      obtain ⟨left, fewLeft, middle, front, isDirectory⟩ : ∃ left ≤ linkLimit, ∃ middle,
          Walks files false left (files.startOf path)
            (path.steps.dropLast.filter PathStep.isMove) (.present middle) ∧
          ∀ name, last = .enter name → files.get? middle = some .directory := by
        by_cases isMove : last.isMove
        · rw [List.filter_cons_of_pos isMove, List.filter_nil] at moves
          obtain ⟨left, fewLeft, middle, front, stands⟩ := walk.before moves
          exact ⟨left, fewLeft.trans few, middle, front.lax, fun name isName =>
            get?_append_of_isSome (stands name isName) (by simp)⟩
        · rw [List.filter_cons_of_neg isMove, List.filter_nil, List.append_nil] at moves
          refine ⟨used, few, location, moves ▸ walk, ?_⟩
          rintro name rfl
          exact absurd rfl isMove
      have answers : Answers files
          (travel files linkLimit ⟨files.startOf path, path.steps.dropLast, .target, true⟩)
          (.present middle) := travel_of_walks fewLeft front
      rcases answers with answer | ⟨_, answer⟩
      · rw [answer] at missing
        cases last with
        | enter name =>
          simp only [bind, Except.bind, isDirectory name rfl, if_true] at missing
          cases missing
        | stay => cases missing
        | up => cases missing
        | impossible => cases missing
      · rw [answer] at missing
        cases missing

/-! ## What an edit that succeeds has found -/

section Editing

variable {step : Change}

theorem lastStep_of_makeDirectory (made : makeDirectory path files = .ok step) :
    ∃ directory name, files.lastStep path = .ok (.named directory name) ∧
      files.get? (directory ++ [name]) = none ∧
      step = .place (directory ++ [name]) .directory := by
  rw [makeDirectory] at made
  cases comes : files.lastStep path with
  | error fault => rw [comes] at made; cases made
  | ok last =>
    rw [comes] at made
    cases last with
    | stay => cases made
    | up => cases made
    | root => cases made
    | named directory name =>
      simp only [bind, Except.bind] at made
      split at made
      · cases made
      · next missing =>
        exact ⟨directory, name, rfl, by simpa using missing, (Except.ok.inj made).symm⟩

theorem lastStep_of_removeFile (removed : removeFile path files = .ok step) :
    ∃ directory name, files.lastStep path = .ok (.named directory name) ∧
      (∃ entry, files.get? (directory ++ [name]) = some entry ∧ entry ≠ .directory) ∧
      path.endsWithSlash = false ∧ step = .remove (directory ++ [name]) := by
  rw [removeFile] at removed
  cases comes : files.lastStep path with
  | error fault => rw [comes] at removed; cases removed
  | ok last =>
    rw [comes] at removed
    cases last with
    | stay => cases removed
    | up => cases removed
    | root => cases removed
    | named directory name =>
      simp only [bind, Except.bind] at removed
      split at removed
      · cases removed
      · cases removed
      · next entry notDirectory stands =>
        split at removed
        · cases removed
        · next noSlash =>
          exact ⟨directory, name, rfl, ⟨entry, stands, fun same => notDirectory (same ▸ rfl)⟩,
            by simpa using noSlash, (Except.ok.inj removed).symm⟩

theorem lastStep_of_removeDirectory (removed : removeDirectory path files = .ok step) :
    ∃ directory name, files.lastStep path = .ok (.named directory name) ∧
      files.get? (directory ++ [name]) = some .directory ∧
      files.children (directory ++ [name]) = [] ∧ step = .remove (directory ++ [name]) := by
  rw [removeDirectory] at removed
  cases comes : files.lastStep path with
  | error fault => rw [comes] at removed; cases removed
  | ok last =>
    rw [comes] at removed
    cases last with
    | stay => cases removed
    | up => cases removed
    | root => cases removed
    | named directory name =>
      simp only [bind, Except.bind] at removed
      split at removed
      · cases removed
      · next isDirectory =>
        split at removed
        · next noChildren =>
          exact ⟨directory, name, rfl, isDirectory, List.isEmpty_iff.1 noChildren,
            (Except.ok.inj removed).symm⟩
        · cases removed
      · cases removed

theorem lastStep_of_rename {target : Path} (renamed : rename path target files = .ok step) :
    ∃ directory name directory' name', files.lastStep path = .ok (.named directory name) ∧
      files.lastStep target = .ok (.named directory' name') ∧
      (∃ entry, files.get? (directory ++ [name]) = some entry ∧ entry ≠ .directory) ∧
      target.endsWithSlash = false ∧ files.get? (directory' ++ [name']) ≠ some .directory ∧
      step = .move (directory ++ [name]) (directory' ++ [name']) := by
  rw [rename] at renamed
  cases comes : files.lastStep path with
  | error fault => rw [comes] at renamed; cases renamed
  | ok last =>
    cases comes' : files.lastStep target with
    | error fault => rw [comes, comes'] at renamed; cases renamed
    | ok last' =>
      rw [comes, comes'] at renamed
      simp only [bind, Except.bind] at renamed
      split at renamed
      · next directory name directory' name' =>
        split at renamed
        · cases renamed
        · cases renamed
        · next entry notDirectory stands =>
          split at renamed
          · cases renamed
          · next noSlash =>
            split at renamed
            · cases renamed
            · next free =>
              exact ⟨directory, name, directory', name', rfl, rfl,
                ⟨entry, stands, fun same => notDirectory (same ▸ rfl)⟩, by simpa using noSlash,
                free, (Except.ok.inj renamed).symm⟩
      · cases renamed

end Editing

end ImageStaging.FileSystem
