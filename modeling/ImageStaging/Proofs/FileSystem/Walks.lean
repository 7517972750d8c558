import ImageStaging.Proofs.Path.Moves

/-!
# Where a lookup comes to

`Walks` is what a successful lookup does, told without its bounds: it takes the moves of a path one
by one, counts the links it follows and comes to an entry or to the one name that is missing. A
walk can be cut in two at any directory on its way, which is how the lookup of a joined path is
brought back to the lookup of its base.
-/

namespace ImageStaging.FileSystem

/-- Where the target of a link starts when the link stands in a directory. -/
def linkStart (here : Location) (target : Path) : Location :=
  if target.isAbsolute then [] else here

/-- A walk that follows so many links from a directory. A strict one does not end at a file. -/
inductive Walks (files : FileSystem) (strict : Bool) :
    Nat → Location → List PathStep → Found → Prop
  | arrive {here : Location} : Walks files strict 0 here [] (.present here)
  | up {links : Nat} {here : Location} {ahead : List PathStep} {found : Found}
      (rest : Walks files strict links here.dropLast ahead found) :
      Walks files strict links here (.up :: ahead) found
  | enter {links : Nat} {here : Location} {name : Name} {ahead : List PathStep} {found : Found}
      (isDirectory : files.get? (here ++ [name]) = some .directory)
      (rest : Walks files strict links (here ++ [name]) ahead found) :
      Walks files strict links here (.enter name :: ahead) found
  | other {here : Location} {name : Name} {entry : Entry}
      (stands : files.get? (here ++ [name]) = some entry) (notDirectory : entry ≠ .directory)
      (notLink : ∀ target, entry ≠ .link target) (lax : strict = false) :
      Walks files strict 0 here [.enter name] (.present (here ++ [name]))
  | missing {here : Location} {name : Name} (nothing : files.get? (here ++ [name]) = none) :
      Walks files strict 0 here [.enter name] (.absent here name)
  | link {links : Nat} {here : Location} {name : Name} {target : Path} {ahead : List PathStep}
      {found : Found} (stands : files.get? (here ++ [name]) = some (.link target))
      (rest : Walks files strict links (linkStart here target) (target.moves ++ ahead) found) :
      Walks files strict (links + 1) here (.enter name :: ahead) found

namespace Walks

variable {files : FileSystem} {strict : Bool} {links : Nat} {here : Location}
  {ahead : List PathStep} {found : Found}

theorem lax (walk : Walks files true links here ahead found) :
    Walks files strict links here ahead found := by
  induction walk with
  | arrive => exact .arrive
  | up _ ih => exact .up ih
  | enter isDirectory _ ih => exact .enter isDirectory ih
  | other _ _ _ lax => cases lax
  | missing nothing => exact .missing nothing
  | link stands _ ih => exact .link stands ih

/-- A walk that does not end at a file is strict. -/
theorem strict_of_not_file {location : Location}
    (walk : Walks files strict links here ahead (.present location))
    (notFile : ∀ entry, files.get? location = some entry → entry = .directory) :
    Walks files true links here ahead (.present location) := by
  generalize ending : Found.present location = found at walk ⊢
  induction walk with
  | arrive => exact .arrive
  | up _ ih => exact .up (ih ending)
  | enter isDirectory _ ih => exact .enter isDirectory (ih ending)
  | other stands notDirectory =>
    obtain rfl := Found.present.inj ending
    exact absurd (notFile _ stands) notDirectory
  | missing nothing => exact .missing nothing
  | link stands _ ih => exact .link stands (ih ending)

theorem strict_of_directory {location : Location}
    (walk : Walks files strict links here ahead (.present location))
    (isDirectory : files.get? location = some .directory) :
    Walks files true links here ahead (.present location) :=
  walk.strict_of_not_file fun _ stands => Option.some.inj (stands.symm.trans isDirectory)

theorem of_directory {name : Name} (isDirectory : files.get? (here ++ [name]) = some .directory)
    (walk : Walks files strict links here (.enter name :: ahead) found) :
    Walks files strict links (here ++ [name]) ahead found := by
  cases walk with
  | enter _ rest => exact rest
  | other stands notDirectory =>
    exact absurd (Option.some.inj (stands.symm.trans isDirectory)) notDirectory
  | missing nothing => cases nothing.symm.trans isDirectory
  | link stands => cases stands.symm.trans isDirectory

theorem of_link {name : Name} {target : Path}
    (stands : files.get? (here ++ [name]) = some (.link target))
    (walk : Walks files strict links here (.enter name :: ahead) found) :
    ∃ left, links = left + 1 ∧
      Walks files strict left (linkStart here target) (target.moves ++ ahead) found := by
  cases walk with
  | enter isDirectory => cases stands.symm.trans isDirectory
  | other other _ notLink =>
    exact absurd (Option.some.inj (other.symm.trans stands)) (notLink _)
  | missing nothing => cases nothing.symm.trans stands
  | @link left _ _ _ _ _ stands' rest =>
    cases stands.symm.trans stands'
    exact ⟨left, rfl, rest⟩

/-- What follows a directory on the way is a walk of its own. -/
theorem split {middle : Location} {more : List PathStep} {linksToMiddle : Nat}
    (first : Walks files true linksToMiddle here ahead (.present middle))
    (whole : Walks files strict links here (ahead ++ more) found) :
    ∃ left, links = linksToMiddle + left ∧ Walks files strict left middle more found := by
  generalize goal : Found.present middle = ending at first
  induction first generalizing links with
  | arrive =>
    cases goal
    exact ⟨links, (Nat.zero_add _).symm, whole⟩
  | up _ ih =>
    cases whole with
    | up rest => exact ih rest goal
  | enter isDirectory _ ih => exact ih (whole.of_directory isDirectory) goal
  | other _ _ _ lax => cases lax
  | missing => cases goal
  | link stands _ ih =>
    rw [List.cons_append] at whole
    obtain ⟨before, rfl, rest⟩ := whole.of_link stands
    rw [← List.append_assoc] at rest
    obtain ⟨left, count, walk⟩ := ih rest goal
    exact ⟨left, by omega, walk⟩

theorem append {middle : Location} {more : List PathStep} {linksToMiddle : Nat}
    (first : Walks files true linksToMiddle here ahead (.present middle))
    (second : Walks files strict links middle more found) :
    Walks files strict (linksToMiddle + links) here (ahead ++ more) found := by
  generalize goal : Found.present middle = ending at first
  induction first with
  | arrive =>
    cases goal
    rw [Nat.zero_add]
    exact second
  | up _ ih => exact .up (ih goal)
  | enter isDirectory _ ih => exact .enter isDirectory (ih goal)
  | other _ _ _ lax => cases lax
  | missing => cases goal
  | link stands _ ih =>
    have rest := ih goal
    rw [List.append_assoc] at rest
    have walk := Walks.link stands rest
    rwa [Nat.add_right_comm] at walk

theorem nil (walk : Walks files strict links here [] found) :
    links = 0 ∧ found = .present here := by
  cases walk with
  | arrive => exact ⟨rfl, rfl⟩

theorem unique {strict' : Bool} {links' : Nat} {found' : Found}
    (first : Walks files strict links here ahead found)
    (second : Walks files strict' links' here ahead found') : found = found' := by
  induction first generalizing links' with
  | arrive => exact second.nil.2.symm
  | up _ ih =>
    cases second with
    | up rest => exact ih rest
  | enter isDirectory _ ih => exact ih (second.of_directory isDirectory)
  | other stands notDirectory notLink =>
    cases second with
    | enter isDirectory =>
      exact absurd (Option.some.inj (stands.symm.trans isDirectory)) notDirectory
    | other => rfl
    | missing nothing => cases nothing.symm.trans stands
    | link other => exact absurd (Option.some.inj (stands.symm.trans other)) (notLink _)
  | missing nothing =>
    cases second with
    | enter isDirectory => cases nothing.symm.trans isDirectory
    | other stands => cases nothing.symm.trans stands
    | missing => rfl
    | link stands => cases nothing.symm.trans stands
  | link stands _ ih =>
    obtain ⟨left, rfl, rest⟩ := second.of_link stands
    exact ih rest

theorem loosen (walk : Walks files strict links here ahead found) :
    Walks files false links here ahead found := by
  cases strict with
  | false => exact walk
  | true => exact walk.lax

end Walks

/-! ## Lookups are walks -/

variable {files : FileSystem} {purpose : Purpose} {wantDirectory : Bool} {found : Found}

/-- A lookup that follows the link at its end walks to what it finds, if the lookups that links
hand it on to do. -/
theorem walks_of_descend {onLink : Walk → Path → Except FileFault Found} {bound : Nat}
    (follows : purpose ≠ .entry)
    (handsOn : ∀ here ahead target found,
      onLink ⟨here, ahead, purpose, wantDirectory⟩ target = .ok found →
        ∃ links < bound, Walks files wantDirectory links (linkStart here target)
          (target.moves ++ ahead.filter PathStep.isMove) found)
    {here : Location} {ahead : List PathStep}
    (comes : descend files onLink purpose wantDirectory here ahead = .ok found) :
    ∃ links ≤ bound, Walks files wantDirectory links here (ahead.filter PathStep.isMove) found := by
  induction ahead generalizing here with
  | nil =>
    cases comes
    exact ⟨0, Nat.zero_le _, .arrive⟩
  | cons step ahead ih =>
    cases step with
    | stay => exact ih comes
    | up =>
      obtain ⟨links, few, walk⟩ := ih comes
      exact ⟨links, few, .up walk⟩
    | impossible =>
      simp only [descend] at comes
      split at comes <;> cases comes
    | enter name =>
      simp only [descend] at comes
      split at comes
      · cases comes
      · split at comes
        · next nothing =>
          cases ahead with
          | nil =>
            cases comes
            exact ⟨0, Nat.zero_le _, .missing nothing⟩
          | cons => cases comes
        · next isDirectory =>
          obtain ⟨links, few, walk⟩ := ih comes
          exact ⟨links, few, .enter isDirectory walk⟩
        · next target stands =>
          rw [if_neg (by simp [follows])] at comes
          obtain ⟨links, few, walk⟩ := handsOn _ _ _ _ comes
          exact ⟨links + 1, few, .link stands walk⟩
        · next entry notDirectory notLink stands =>
          split at comes
          · next last =>
            simp only [Bool.and_eq_true, List.isEmpty_iff, Bool.not_eq_true'] at last
            obtain ⟨rfl, lax⟩ := last
            cases comes
            exact ⟨0, Nat.zero_le _, .other stands (by rintro rfl; exact notDirectory rfl)
              (by rintro target rfl; exact notLink target rfl) lax⟩
          · cases comes

theorem walks_of_travel {links : Nat} {walk : Walk} (follows : walk.purpose ≠ .entry)
    (comes : travel files links walk = .ok found) :
    ∃ used ≤ links, Walks files walk.wantDirectory used walk.here
      (walk.ahead.filter PathStep.isMove) found := by
  induction links generalizing walk found with
  | zero =>
    refine walks_of_descend follows ?_ comes
    intro here ahead target found impossible
    cases impossible
  | succ links ih =>
    refine walks_of_descend follows ?_ comes
    intro here ahead target found comes
    obtain ⟨used, few, further⟩ := ih (by exact follows) comes
    refine ⟨used, Nat.lt_succ_of_le few, ?_⟩
    rw [show (Walk.through ⟨here, ahead, walk.purpose, walk.wantDirectory⟩ target).ahead =
      target.steps ++ ahead from rfl, List.filter_append] at further
    cases wanted : walk.wantDirectory with
    | false => exact further.loosen
    | true =>
      simp only [Walk.through, wanted, Bool.true_or] at further
      exact further

/-- What a lookup may answer when a walk comes to an entry or to a missing name: a slash or a `.`
at the end of a path can still turn it away. -/
def Answers (files : FileSystem) (answer : Except FileFault Found) : Found → Prop
  | .present location =>
    answer = .ok (.present location) ∨
      (files.get? location ≠ some .directory ∧ answer = .error .notADirectory)
  | .absent directory name =>
    answer = .ok (.absent directory name) ∨ answer = .error .notFound

theorem descend_of_walks {onLink : Walk → Path → Except FileFault Found} {bound : Nat}
    (handsOn : ∀ here ahead target found links, links < bound →
      Walks files false links (linkStart here target)
        (target.moves ++ ahead.filter PathStep.isMove) found →
      Answers files (onLink ⟨here, ahead, .target, wantDirectory⟩ target) found)
    {here : Location} {ahead : List PathStep} {links : Nat} (few : links ≤ bound)
    (walk : Walks files false links here (ahead.filter PathStep.isMove) found) :
    Answers files (descend files onLink .target wantDirectory here ahead) found := by
  induction ahead generalizing here with
  | nil =>
    obtain ⟨_, rfl⟩ := walk.nil
    exact .inl rfl
  | cons step ahead ih =>
    cases step with
    | stay => exact ih walk
    | up =>
      cases walk with
      | up rest => exact ih rest
    | impossible => cases walk
    | enter name =>
      have noDemand : (ahead.isEmpty && wantDirectory && decide (Purpose.target = .creation)) =
          false := by simp
      simp only [descend, noDemand, Bool.false_eq_true, if_false]
      rw [List.filter_cons_of_pos (by rfl)] at walk
      generalize isRest : ahead.filter PathStep.isMove = rest at walk
      cases walk with
      | enter isDirectory walk =>
        rw [isDirectory]
        exact ih (isRest ▸ walk)
      | @other _ _ entry stands notDirectory notLink =>
        rw [stands]
        have turnedAway : files.get? (here ++ [name]) ≠ some .directory := by
          rw [stands]
          exact fun same => notDirectory (Option.some.inj same)
        cases entry with
        | directory => exact absurd rfl notDirectory
        | link target => exact absurd rfl (notLink target)
        | file content executable =>
          by_cases last : (ahead.isEmpty && !wantDirectory) = true
          · exact .inl (by simp only [last, if_true])
          · exact .inr ⟨turnedAway, by simp only [last]; rfl⟩
        | fullDevice =>
          by_cases last : (ahead.isEmpty && !wantDirectory) = true
          · exact .inl (by simp only [last, if_true])
          · exact .inr ⟨turnedAway, by simp only [last]; rfl⟩
      | missing nothing =>
        rw [nothing]
        cases ahead with
        | nil => exact .inl rfl
        | cons => exact .inr rfl
      | @link left _ _ target _ _ stands walk =>
        have notEntry : (ahead.isEmpty && decide (Purpose.target = .entry) && !wantDirectory) =
            false := by simp
        simp only [stands, notEntry, Bool.false_eq_true, if_false]
        exact handsOn here ahead target found left (Nat.lt_of_succ_le few) (isRest ▸ walk)

/-- A lookup answers by the walk along its moves. -/
theorem travel_of_walks {links used : Nat} (few : used ≤ links) {here : Location}
    {ahead : List PathStep}
    (walk : Walks files false used here (ahead.filter PathStep.isMove) found) :
    Answers files (travel files links ⟨here, ahead, .target, wantDirectory⟩) found := by
  induction links generalizing wantDirectory here ahead found used with
  | zero =>
    refine descend_of_walks ?_ few walk
    intro _ _ _ _ links impossible
    cases impossible
  | succ links ih =>
    refine descend_of_walks ?_ few walk
    intro here ahead target found used few walk
    refine ih (Nat.le_of_lt_succ few) ?_
    rw [List.filter_append]
    exact walk

/-! ## Lookups of paths -/

variable {path : Path} {location : Location}

theorem resolve_eq (files : FileSystem) (purpose : Purpose) (path : Path) :
    files.resolve purpose path = (checkPath path).bind fun _ =>
      travel files linkLimit ⟨files.startOf path, path.steps, purpose, path.endsWithSlash⟩ :=
  rfl

theorem locate_eq_ok_iff :
    files.locate purpose path = .ok location ↔
      files.resolve purpose path = .ok (.present location) := by
  unfold locate
  cases answer : files.resolve purpose path with
  | error fault => simp [bind, Except.bind]
  | ok found =>
    cases found with
    | present place => simp [bind, Except.bind, pure, Except.pure]
    | absent directory name => simp [bind, Except.bind, throw, throwThe, MonadExceptOf.throw]

/-- The walk from the start of a path along its moves. -/
def Leads (files : FileSystem) (path : Path) (found : Found) : Prop :=
  ∃ links ≤ linkLimit, Walks files false links (files.startOf path) path.moves found

theorem leads_of_resolve (follows : purpose ≠ .entry)
    (comes : files.resolve purpose path = .ok found) : files.Leads path found := by
  rw [resolve_eq] at comes
  cases checked : checkPath path with
  | error fault => rw [checked] at comes; cases comes
  | ok =>
    rw [checked] at comes
    obtain ⟨links, few, walk⟩ := walks_of_travel (by exact follows) comes
    exact ⟨links, few, walk.loosen⟩

theorem leads_of_locate (comes : files.locate .target path = .ok location) :
    files.Leads path (.present location) :=
  leads_of_resolve (by decide) (locate_eq_ok_iff.1 comes)

theorem Leads.unique {first second : Found} (one : files.Leads path first)
    (other : files.Leads path second) : first = second := by
  obtain ⟨_, _, walk⟩ := one
  obtain ⟨_, _, walk'⟩ := other
  exact walk.unique walk'

theorem Leads.answers (leads : files.Leads path found) (checked : checkPath path = .ok ()) :
    Answers files (files.resolve .target path) found := by
  obtain ⟨_, few, walk⟩ := leads
  rw [resolve_eq, checked]
  exact travel_of_walks few walk

theorem Leads.locate_directory (leads : files.Leads path (.present location))
    (isDirectory : files.get? location = some .directory) (checked : checkPath path = .ok ()) :
    files.locate .target path = .ok location := by
  rcases leads.answers checked with answer | ⟨notDirectory, _⟩
  · exact locate_eq_ok_iff.2 answer
  · exact absurd isDirectory notDirectory

theorem checkPath_of_resolve (comes : files.resolve purpose path = .ok found) :
    checkPath path = .ok () := by
  rw [resolve_eq] at comes
  cases checked : checkPath path with
  | error fault => rw [checked] at comes; cases comes
  | ok => rfl

theorem locate_of_checkPath {fault : FileFault} (files : FileSystem) (purpose : Purpose)
    (failed : checkPath path = .error fault) : files.locate purpose path = .error fault := by
  rw [locate, resolve_eq, failed]
  rfl

theorem nonempty_of_locate (found : files.locate purpose path = .ok location) :
    path.bytes ≠ [] := by
  intro empty
  have checked := checkPath_of_resolve (locate_eq_ok_iff.1 found)
  rw [checkPath, empty] at checked
  simp at checked

end ImageStaging.FileSystem
