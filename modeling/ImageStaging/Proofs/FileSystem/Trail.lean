import ImageStaging.FileSystem.Query
import ImageStaging.Proofs.FileSystem.Walks

/-!
# What a lookup looks at

The trail of a lookup is the list of locations whose entries it asks for. File systems that agree
along the trail answer the lookup alike, so a path whose trail stays out of a region is read alike
whatever happens to that region.
-/

namespace ImageStaging.FileSystem

/-- The locations a lookup asks for up to the next link, and then those that the link adds. -/
def descendTrail (files : FileSystem) (onLink : Location → List PathStep → List Location) :
    Location → List PathStep → List Location
  | _, [] => []
  | here, .stay :: ahead => descendTrail files onLink here ahead
  | here, .up :: ahead => descendTrail files onLink here.dropLast ahead
  | _, .impossible :: _ => []
  | here, .enter name :: ahead =>
    (here ++ [name]) ::
      match files.get? (here ++ [name]) with
      | some .directory => descendTrail files onLink (here ++ [name]) ahead
      | some (.link target) => onLink (linkStart here target) (target.steps ++ ahead)
      | _ => []

def trail (files : FileSystem) : Nat → Location → List PathStep → List Location
  | 0 => descendTrail files fun _ _ => []
  | links + 1 => descendTrail files (trail files links)

/-- Where steps first enter a name, once the `..` before that have been taken. These ask for
nothing, so the directory that a path starts from may have been taken away. -/
def climb : Location → List PathStep → Location
  | here, .stay :: ahead => climb here ahead
  | here, .up :: ahead => climb here.dropLast ahead
  | here, _ => here

/-- The locations that looking a path up may ask for, the one where it first enters a name among
them. -/
def trailOf (files : FileSystem) (path : Path) : List Location :=
  climb (files.startOf path) path.steps :: files.trail linkLimit (files.startOf path) path.steps

/-- Looking the path up asks for nothing at or below a location. -/
def Avoids (files : FileSystem) (region : Location) (path : Path) : Prop :=
  ∀ location ∈ files.trailOf path, ¬ region <+: location

/-- Nothing below the end of a path leads to a location, be it by links. -/
def Apart (files : FileSystem) (region : Location) (root : Path) : Prop :=
  ∀ names, files.Avoids region (root.below names)

instance (files : FileSystem) (region : Location) (path : Path) :
    Decidable (files.Avoids region path) :=
  inferInstanceAs (Decidable (∀ location ∈ files.trailOf path, ¬ region <+: location))

/-- Two file systems differ at most at and below a location. -/
structure AgreeOff (region : Location) (files other : FileSystem) : Prop where
  workingDirectory : other.workingDirectory = files.workingDirectory
  get? : ∀ location, ¬ region <+: location → other.get? location = files.get? location

/-! ## Trails and steps -/

section Steps

variable {files : FileSystem} {onLink : Location → List PathStep → List Location}

theorem descendTrail_filter
    (alike : ∀ here first second, first.filter PathStep.isMove = second.filter PathStep.isMove →
      onLink here first = onLink here second)
    (here : Location) (steps : List PathStep) :
    descendTrail files onLink here (steps.filter PathStep.isMove) =
      descendTrail files onLink here steps := by
  induction steps generalizing here with
  | nil => rfl
  | cons step ahead ih =>
    cases step with
    | stay => exact ih here
    | up => exact ih here.dropLast
    | impossible => rfl
    | enter name =>
      rw [List.filter_cons_of_pos (by rfl)]
      simp only [descendTrail]
      congr 1
      split
      · exact ih _
      · exact alike _ _ _ (by simp)
      · rfl

/-- Only the moves of a path decide about its trail. -/
theorem trail_filter (links : Nat) (here : Location) (steps : List PathStep) :
    files.trail links here (steps.filter PathStep.isMove) = files.trail links here steps := by
  induction links generalizing here steps with
  | zero => exact descendTrail_filter (fun _ _ _ _ => rfl) here steps
  | succ links ih =>
    refine descendTrail_filter ?_ here steps
    intro here first second same
    rw [← ih here first, same, ih]

theorem descendTrail_impossible {more : List PathStep}
    (alike : ∀ here front, onLink here (front ++ .impossible :: more) = onLink here front)
    (here : Location) (steps : List PathStep) :
    descendTrail files onLink here (steps ++ .impossible :: more) =
      descendTrail files onLink here steps := by
  induction steps generalizing here with
  | nil => rfl
  | cons step ahead ih =>
    cases step with
    | stay => exact ih here
    | up => exact ih here.dropLast
    | impossible => rfl
    | enter name =>
      simp only [List.cons_append, descendTrail]
      congr 1
      split
      · exact ih _
      · rw [← List.append_assoc]
        exact alike _ _
      · rfl

/-- A lookup that has come to an impossible step asks for nothing more. -/
theorem trail_impossible (links : Nat) (here : Location) (steps more : List PathStep) :
    files.trail links here (steps ++ .impossible :: more) = files.trail links here steps := by
  induction links generalizing here steps with
  | zero => exact descendTrail_impossible (fun _ _ => rfl) here steps
  | succ links ih => exact descendTrail_impossible (fun here front => ih here front) here steps

theorem climb_filter (here : Location) (steps : List PathStep) :
    climb here (steps.filter PathStep.isMove) = climb here steps := by
  induction steps generalizing here with
  | nil => rfl
  | cons step ahead ih =>
    cases step with
    | stay => exact ih here
    | up => exact ih here.dropLast
    | enter => rfl
    | impossible => rfl

theorem trail_eq_of_moves {first second : List PathStep}
    (same : first.filter PathStep.isMove = second.filter PathStep.isMove) (links : Nat)
    (here : Location) : files.trail links here first = files.trail links here second := by
  rw [← trail_filter, same, trail_filter]

end Steps

/-! ## What agrees along a trail -/

theorem exists_of_isFile {entry : Entry} (isFile : entry.isFile = true) :
    ∃ content executable, entry = .file content executable := by
  cases entry with
  | file content executable => exact ⟨content, executable, rfl⟩
  | directory => cases isFile
  | link => cases isFile
  | fullDevice => cases isFile

/-- An entry has not changed its kind; a file may have another content. -/
def KeepsKind (entry later : Entry) : Prop :=
  later = entry ∨ (entry.isFile = true ∧ later.isFile = true)

namespace KeepsKind

variable {entry later : Entry}

theorem trans {last : Entry} (first : KeepsKind entry later) (second : KeepsKind later last) :
    KeepsKind entry last := by
  rcases first with rfl | ⟨isFile, isFileThen⟩
  · exact second
  · rcases second with rfl | ⟨_, stillFile⟩
    · exact .inr ⟨isFile, isFileThen⟩
    · exact .inr ⟨isFile, stillFile⟩

theorem eq_of_not_file (kept : KeepsKind entry later) (notFile : entry.isFile = false) :
    later = entry := by
  rcases kept with same | ⟨isFile, _⟩
  · exact same
  · cases notFile.symm.trans isFile

end KeepsKind

/-- Nothing is there in both, or the entry of the one has kept its kind in the other. -/
abbrev SameKind (files other : FileSystem) (location : Location) : Prop :=
  Option.Rel KeepsKind (files.get? location) (other.get? location)

theorem sameKind_of_eq {files other : FileSystem} {location : Location}
    (same : other.get? location = files.get? location) : SameKind files other location := by
  rw [SameKind, same]
  cases files.get? location with
  | none => exact .none
  | some entry => exact .some (.inl rfl)

section Agreement

variable {files other : FileSystem}

/-- A lookup does not take note of what a file holds. -/
theorem descend_congr {onLink onLink' : Walk → Path → Except FileFault Found}
    {next : Location → List PathStep → List Location} {purpose : Purpose} {wantDirectory : Bool}
    (handsOn : ∀ here ahead target,
      (∀ location ∈ next (linkStart here target) (target.steps ++ ahead),
        SameKind files other location) →
      onLink' ⟨here, ahead, purpose, wantDirectory⟩ target =
        onLink ⟨here, ahead, purpose, wantDirectory⟩ target)
    {here : Location} {ahead : List PathStep}
    (agree : ∀ location ∈ descendTrail files next here ahead, SameKind files other location) :
    descend other onLink' purpose wantDirectory here ahead =
      descend files onLink purpose wantDirectory here ahead := by
  induction ahead generalizing here with
  | nil => rfl
  | cons step ahead ih =>
    cases step with
    | stay => exact ih agree
    | up => exact ih agree
    | impossible => rfl
    | enter name =>
      simp only [descendTrail, List.forall_mem_cons] at agree
      obtain ⟨kind, later⟩ := agree
      simp only [descend]
      rw [SameKind] at kind
      generalize files.get? (here ++ [name]) = found at kind later ⊢
      generalize other.get? (here ++ [name]) = found' at kind ⊢
      cases kind with
      | none => rfl
      | @some _ entry kept =>
        rcases kept with rfl | ⟨isFile, isFile'⟩
        · cases entry with
          | directory => simp only [ih later]
          | link target => simp only [handsOn here ahead target later]
          | file content executable => rfl
          | fullDevice => rfl
        · obtain ⟨_, _, rfl⟩ := exists_of_isFile isFile
          obtain ⟨_, _, rfl⟩ := exists_of_isFile isFile'
          rfl

/-- File systems with the same kinds of entries along the trail of a walk answer it alike. -/
theorem travel_congr {links : Nat} {walk : Walk}
    (agree : ∀ location ∈ files.trail links walk.here walk.ahead, SameKind files other location) :
    travel other links walk = travel files links walk := by
  induction links generalizing walk with
  | zero => exact descend_congr (fun _ _ _ _ => rfl) agree
  | succ links ih =>
    have handsOn : ∀ here ahead target,
        (∀ location ∈ files.trail links (linkStart here target) (target.steps ++ ahead),
          SameKind files other location) →
        travel other links
            (Walk.through ⟨here, ahead, walk.purpose, walk.wantDirectory⟩ target) =
          travel files links
            (Walk.through ⟨here, ahead, walk.purpose, walk.wantDirectory⟩ target) :=
      fun here ahead target agree => ih agree
    exact descend_congr handsOn agree

theorem descendTrail_congr {next next' : Location → List PathStep → List Location}
    (handsOn : ∀ here ahead,
      (∀ location ∈ next here ahead, other.get? location = files.get? location) →
      next' here ahead = next here ahead)
    {here : Location} {ahead : List PathStep}
    (agree : ∀ location ∈ descendTrail files next here ahead,
      other.get? location = files.get? location) :
    descendTrail other next' here ahead = descendTrail files next here ahead := by
  induction ahead generalizing here with
  | nil => rfl
  | cons step ahead ih =>
    cases step with
    | stay => exact ih agree
    | up => exact ih agree
    | impossible => rfl
    | enter name =>
      simp only [descendTrail, List.forall_mem_cons] at agree ⊢
      obtain ⟨same, later⟩ := agree
      rw [same]
      cases stands : files.get? (here ++ [name]) with
      | none => rfl
      | some entry =>
        rw [stands] at later
        cases entry with
        | directory => exact congrArg _ (ih later)
        | link target => exact congrArg _ (handsOn _ _ later)
        | file content executable => rfl
        | fullDevice => rfl

theorem trail_congr {links : Nat} {here : Location} {ahead : List PathStep}
    (agree : ∀ location ∈ files.trail links here ahead,
      other.get? location = files.get? location) :
    other.trail links here ahead = files.trail links here ahead := by
  induction links generalizing here ahead with
  | zero => exact descendTrail_congr (fun _ _ _ => rfl) agree
  | succ links ih => exact descendTrail_congr (fun _ _ agree => ih agree) agree

end Agreement

/-! ## Where a walk goes, its trail goes -/

section Membership

variable {files : FileSystem} {strict : Bool} {used links : Nat} {here : Location}
  {ahead : List PathStep} {location : Location} {name : Name}

theorem trail_up (links : Nat) (here : Location) (ahead : List PathStep) :
    files.trail links here (.up :: ahead) = files.trail links here.dropLast ahead := by
  cases links <;> rfl

theorem trail_enter_directory {name : Name}
    (isDirectory : files.get? (here ++ [name]) = some .directory) :
    files.trail links here (.enter name :: ahead) =
      (here ++ [name]) :: files.trail links (here ++ [name]) ahead := by
  cases links <;> simp [trail, descendTrail, isDirectory]

theorem trail_enter_link {name : Name} {target : Path}
    (stands : files.get? (here ++ [name]) = some (.link target)) :
    files.trail (links + 1) here (.enter name :: ahead) =
      (here ++ [name]) :: files.trail links (linkStart here target) (target.moves ++ ahead) := by
  rw [trail, descendTrail, stands]
  refine congrArg _ (trail_eq_of_moves ?_ links _)
  simp [Path.moves]

theorem mem_trail_enter (name : Name) :
    here ++ [name] ∈ files.trail links here (.enter name :: ahead) := by
  cases links <;> exact List.mem_cons_self

theorem trail_nil (links : Nat) (here : Location) : files.trail links here [] = [] := by
  cases links <;> rfl

/-- A trail goes on from where a strict walk comes to, with the links that are left to it. -/
theorem Walks.trail_append (walk : Walks files true used here ahead (.present location))
    (few : used ≤ links) (rest : List PathStep) :
    files.trail links here (ahead ++ rest) =
      files.trail links here ahead ++ files.trail (links - used) location rest := by
  generalize ending : Found.present location = found at walk
  induction walk generalizing links with
  | arrive =>
    cases ending
    rw [List.nil_append, trail_nil, List.nil_append, Nat.sub_zero]
  | up _ ih => rw [List.cons_append, trail_up, trail_up, ih few ending]
  | enter isDirectory _ ih =>
    rw [List.cons_append, trail_enter_directory isDirectory, trail_enter_directory isDirectory,
      ih few ending, List.cons_append]
  | other _ _ _ lax => cases lax
  | missing => cases ending
  | link stands _ ih =>
    obtain ⟨left, rfl⟩ := Nat.exists_eq_add_of_le' few
    rw [List.cons_append, ← Nat.add_assoc, trail_enter_link stands, trail_enter_link stands,
      ← List.append_assoc, ih (Nat.le_add_left _ left) ending, List.cons_append,
      Nat.add_sub_add_right]

/-- What a strict walk asks for is a directory or a link that it follows. -/
theorem Walks.passes (walk : Walks files true used here ahead (.present location))
    (few : used ≤ links) : ∀ seen ∈ files.trail links here ahead,
      files.get? seen = some .directory ∨ ∃ target, files.get? seen = some (.link target) := by
  generalize ending : Found.present location = found at walk
  induction walk generalizing links with
  | arrive =>
    intro seen member
    rw [trail_nil] at member
    cases member
  | up _ ih =>
    rw [trail_up]
    exact ih few ending
  | enter isDirectory _ ih =>
    rw [trail_enter_directory isDirectory, List.forall_mem_cons]
    exact ⟨.inl isDirectory, ih few ending⟩
  | other _ _ _ lax => cases lax
  | missing => cases ending
  | link stands _ ih =>
    obtain ⟨left, rfl⟩ := Nat.exists_eq_add_of_le' few
    rw [← Nat.add_assoc, trail_enter_link stands, List.forall_mem_cons]
    exact ⟨.inr ⟨_, stands⟩, ih (Nat.le_add_left _ left) ending⟩

theorem climb_above (here : Location) (steps : List PathStep) : climb here steps <+: here := by
  induction steps generalizing here with
  | nil => exact List.prefix_rfl
  | cons step ahead ih =>
    cases step with
    | stay => exact ih here
    | up => exact (ih here.dropLast).trans (List.dropLast_prefix here)
    | enter => exact List.prefix_rfl
    | impossible => exact List.prefix_rfl

/-- What does not begin by going up does not change where the steps before it first enter a name. -/
theorem climb_append {more : List PathStep} (goesDown : ∀ here, climb here more = here)
    (here : Location) (ahead : List PathStep) : climb here (ahead ++ more) = climb here ahead := by
  induction ahead generalizing here with
  | nil => exact goesDown here
  | cons step ahead ih =>
    cases step with
    | stay => exact ih here
    | up => exact ih here.dropLast
    | enter => rfl
    | impossible => rfl

theorem climb_append_names (here : Location) (ahead : List PathStep) (names : List Name) :
    climb here (ahead ++ names.map .enter) = climb here ahead :=
  climb_append (fun _ => by cases names <;> rfl) here ahead

theorem get?_of_child {entry : Entry} (stands : files.get? (here ++ [name]) = some entry) :
    files.get? here = some .directory := by
  have parent := get?_parent_of_isSome (List.concat_ne_nil name here) (by rw [stands]; rfl)
  rwa [List.dropLast_concat] at parent

/-- A walk to a directory has first entered a name in a directory. -/
theorem Walks.climb_isDirectory (walk : Walks files strict used here ahead (.present location))
    (isDirectory : files.get? location = some .directory) :
    files.get? (climb here ahead) = some .directory := by
  generalize ending : Found.present location = found at walk
  induction walk with
  | arrive =>
    cases ending
    exact isDirectory
  | up _ ih => exact ih ending
  | enter stands => exact get?_of_child stands
  | other stands => exact get?_of_child stands
  | missing => cases ending
  | link stands => exact get?_of_child stands

/-- A walk ends at or above a location that it looked at, or at or above where it first entered a
name. -/
theorem Walks.exists_mem_trail (walk : Walks files strict used here ahead (.present location))
    (few : used ≤ links) :
    ∃ seen ∈ climb here ahead :: files.trail links here ahead, location <+: seen := by
  generalize ending : Found.present location = found at walk
  induction walk generalizing links with
  | arrive =>
    cases ending
    exact ⟨_, List.mem_cons_self, List.prefix_rfl⟩
  | up _ ih =>
    rw [trail_up]
    exact ih few ending
  | @enter _ here name _ _ isDirectory _ ih =>
    obtain ⟨seen, member, above⟩ := ih few ending
    rw [trail_enter_directory isDirectory]
    rcases List.mem_cons.1 member with rfl | later
    · exact ⟨here ++ [name], List.mem_cons_of_mem _ List.mem_cons_self,
        above.trans (climb_above _ _)⟩
    · exact ⟨seen, List.mem_cons_of_mem _ (List.mem_cons_of_mem _ later), above⟩
  | @other here name =>
    cases ending
    exact ⟨here ++ [name], List.mem_cons_of_mem _ (mem_trail_enter name), List.prefix_rfl⟩
  | missing => cases ending
  | @link _ here name target ahead _ stands _ ih =>
    obtain ⟨left, rfl⟩ := Nat.exists_eq_add_of_le' few
    obtain ⟨seen, member, above⟩ := ih (Nat.le_add_left _ left) ending
    rw [← Nat.add_assoc, trail_enter_link stands]
    rcases List.mem_cons.1 member with rfl | later
    · refine ⟨here, List.mem_cons_self, above.trans ((climb_above _ _).trans ?_)⟩
      unfold linkStart
      split
      · exact List.nil_prefix
      · exact List.prefix_rfl
    · exact ⟨seen, List.mem_cons_of_mem _ (List.mem_cons_of_mem _ later), above⟩

end Membership

/-! ## Paths that avoid a region -/

section Avoiding

variable {files other : FileSystem} {region : Location} {path : Path} {purpose : Purpose}

theorem startOf_congr (same : other.workingDirectory = files.workingDirectory) (path : Path) :
    other.startOf path = files.startOf path := by
  rw [startOf, startOf, same]

theorem resolve_congr (same : other.workingDirectory = files.workingDirectory)
    (agree : ∀ location ∈ files.trail linkLimit (files.startOf path) path.steps,
      SameKind files other location) :
    other.resolve purpose path = files.resolve purpose path := by
  rw [resolve_eq, resolve_eq, startOf_congr same, travel_congr agree]

theorem trailOf_congr (same : other.workingDirectory = files.workingDirectory)
    (agree : ∀ location ∈ files.trailOf path, other.get? location = files.get? location) :
    other.trailOf path = files.trailOf path := by
  rw [trailOf, trailOf, startOf_congr same,
    trail_congr fun location member => agree location (List.mem_cons_of_mem _ member)]

namespace AgreeOff

theorem refl (region : Location) (files : FileSystem) : AgreeOff region files files :=
  ⟨rfl, fun _ _ => rfl⟩

theorem place (files : FileSystem) (region : Location) (entry : Entry) :
    AgreeOff region files (files.place region entry) := by
  refine ⟨workingDirectory_place files region entry, fun location outside => ?_⟩
  rw [get?_place, if_neg]
  rintro ⟨-, rfl⟩
  exact outside List.prefix_rfl

theorem symm (agree : AgreeOff region files other) : AgreeOff region other files :=
  ⟨agree.workingDirectory.symm, fun location off => (agree.get? location off).symm⟩

theorem trans {third : FileSystem} (first : AgreeOff region files other)
    (second : AgreeOff region other third) : AgreeOff region files third :=
  ⟨second.workingDirectory.trans first.workingDirectory,
    fun location off => (second.get? location off).trans (first.get? location off)⟩

variable (agree : AgreeOff region files other) (avoids : files.Avoids region path)
include agree avoids

theorem on_trail : ∀ location ∈ files.trailOf path, other.get? location = files.get? location :=
  fun location member => agree.get? location (avoids location member)

theorem resolve_eq : other.resolve purpose path = files.resolve purpose path :=
  resolve_congr agree.workingDirectory fun location member =>
    sameKind_of_eq (agree.on_trail avoids location (List.mem_cons_of_mem _ member))

theorem locate_eq : other.locate purpose path = files.locate purpose path := by
  rw [locate, locate, agree.resolve_eq avoids]

theorem still_avoids : other.Avoids region path := by
  rw [Avoids, trailOf_congr agree.workingDirectory (agree.on_trail avoids)]
  exact avoids

end AgreeOff

theorem trailOf_eq (files : FileSystem) (path : Path) :
    files.trailOf path = climb (files.startOf path) path.moves ::
      files.trail linkLimit (files.startOf path) path.moves := by
  rw [trailOf, Path.moves, climb_filter, trail_filter]

/-- What looking a path up asks for, a path that goes further down asks for as well. -/
theorem Leads.trailOf_append {longer : Path} {location : Location} {names : List Name}
    (leads : files.Leads path (.present location))
    (isDirectory : files.get? location = some .directory)
    (startOf : files.startOf longer = files.startOf path)
    (moves : longer.moves = path.moves ++ names.map .enter) :
    ∃ left, files.trailOf longer =
      files.trailOf path ++ files.trail left location (names.map .enter) := by
  obtain ⟨used, few, walk⟩ := leads
  have strictly := walk.strict_of_directory isDirectory
  refine ⟨linkLimit - used, ?_⟩
  rw [trailOf_eq, trailOf_eq, startOf, moves, climb_append_names, strictly.trail_append few,
    List.cons_append]

theorem Leads.not_below {location : Location} (leads : files.Leads path (.present location))
    (avoids : files.Avoids region path) : ¬ region <+: location := by
  obtain ⟨used, few, walk⟩ := leads
  obtain ⟨seen, member, above⟩ := walk.exists_mem_trail few
  rw [← trailOf_eq] at member
  exact fun inside => avoids seen member (inside.trans above)

theorem not_below_of_locate {location : Location} (avoids : files.Avoids region path)
    (found : files.locate .target path = .ok location) : ¬ region <+: location :=
  (leads_of_locate found).not_below avoids

namespace AgreeOff

variable (agree : AgreeOff region files other) (avoids : files.Avoids region path)
include agree avoids

theorem examine_eq : other.examine path = files.examine path := by
  rw [examine, examine, agree.locate_eq avoids]
  cases found : files.locate .target path with
  | error fault => rfl
  | ok location =>
    simp only [bind, Except.bind, agree.get? location (not_below_of_locate avoids found)]

theorem exists?_eq : other.exists? path = files.exists? path := by
  rw [exists?, exists?, agree.examine_eq avoids]

end AgreeOff

/-- A path that keeps out of a region has come to where it goes on from without entering it. -/
theorem Avoids.front {location : Location} {name : Name}
    (avoids : files.Avoids region (path.join name.toPath))
    (leads : files.Leads path (.present location))
    (isDirectory : files.get? location = some .directory) : files.Avoids region path := by
  have relative := Name.isAbsolute_toPath name
  have moves : (path.join name.toPath).moves = path.moves ++ [name].map .enter := by
    rw [Path.moves_join relative, Name.moves_toPath]
    rfl
  obtain ⟨left, trail⟩ := leads.trailOf_append isDirectory (Path.startOf_join files relative) moves
  intro seen member
  refine avoids seen ?_
  rw [trail]
  exact List.mem_append_left _ member

end Avoiding

end ImageStaging.FileSystem
