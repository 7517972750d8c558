import ImageStaging.Proofs.FileSystem.Site

/-!
# Paths that run out

A path runs out when it comes to a directory in which its next name is missing. Such a path leads
nowhere, and all that can be made for it is a directory of that name. If it does not turn back by
`..` afterwards, the directories that are made for it one after another stand where its names spell,
and the path leads to the last of them. A path that turns back can come to entries that stood there
before.
-/

namespace ImageStaging.FileSystem

variable {files other : FileSystem} {path source : Path} {here here' location : Location}
  {name name' entry : Name} {rest rest' : List PathStep} {names : List Name}

/-- The way of a path comes to a directory in which the next name is missing, with some moves left
after that. The directory is there, which the working directory need not be. -/
structure RunsOut (files : FileSystem) (path : Path) (here : Location) (name : Name)
    (rest : List PathStep) : Prop where
  before : ∃ ahead, path.moves = ahead ++ .enter name :: rest ∧ ∃ used ≤ linkLimit,
    Walks files true used (files.startOf path) ahead (.present here)
  isDirectory : files.get? here = some .directory
  nothing : files.get? (here ++ [name]) = none

/-- A path that does not turn back once it has run out. -/
def Straight (files : FileSystem) (path : Path) : Prop :=
  ∀ here name rest, RunsOut files path here name rest → .up ∉ rest

/-- Some first moves of a path lead to a directory, and the names after them spell a location. -/
def Spells (files : FileSystem) (path : Path) (place : Location) : Prop :=
  ∃ ahead names back here, path.moves = ahead ++ (names.map .enter ++ back) ∧
    (∃ used ≤ linkLimit, Walks files true used (files.startOf path) ahead (.present here)) ∧
    place = here ++ names

/-- Nothing is different but for new directories that the first moves of a path spell. -/
def Grown (files : FileSystem) (path : Path) (other : FileSystem) : Prop :=
  ∀ place, other.get? place = files.get? place ∨
    (files.get? place = none ∧ other.get? place = some .directory ∧ Spells files path place)

theorem Grown.refl (files : FileSystem) (path : Path) : Grown files path files :=
  fun _ => .inl rfl

/-- The first directory on the way down to another. -/
theorem get?_child (isDirectory : files.get? (here ++ name :: names) = some .directory) :
    files.get? (here ++ [name]) = some .directory := by
  rw [List.append_cons] at isDirectory
  by_cases last : names = []
  · rwa [last, List.append_nil] at isDirectory
  · exact get?_append_of_isSome (by rw [isDirectory]; rfl) last

/-! ## Walks -/

namespace Walks

variable {strict : Bool} {used used' links : Nat} {ahead more : List PathStep} {middle : Location}

/-- No walk to an entry goes by a name that is missing. -/
theorem none_beyond (front : Walks files true used here ahead (.present middle))
    (nothing : files.get? (middle ++ [name]) = none) :
    ¬ Walks files strict used' here (ahead ++ .enter name :: more) (.present location) := by
  intro walk
  obtain ⟨_, _, middle', front', stands⟩ := walk.before rfl
  obtain rfl := Found.present.inj (front.unique front')
  have stands := stands name rfl
  rw [nothing] at stands
  cases stands

/-- Names lead down to a directory that they spell. -/
theorem down (isDirectory : files.get? (here ++ names) = some .directory) :
    Walks files true 0 here (names.map .enter) (.present (here ++ names)) := by
  induction names generalizing here with
  | nil =>
    rw [List.append_nil]
    exact .arrive
  | cons name rest ih =>
    refine .enter (get?_child isDirectory) ?_
    rw [List.append_cons here name rest] at isDirectory ⊢
    exact ih isDirectory

end Walks

theorem above_of_mem_trail_down (isDirectory : files.get? (here ++ names) = some .directory)
    (links : Nat) : ∀ seen ∈ files.trail links here (names.map .enter), seen <+: here ++ names := by
  induction names generalizing here with
  | nil =>
    intro seen member
    rw [List.map_nil, trail_nil] at member
    cases member
  | cons name rest ih =>
    rw [List.map_cons, trail_enter_directory (get?_child isDirectory), List.forall_mem_cons,
      List.append_cons here name rest]
    rw [List.append_cons here name rest] at isDirectory
    exact ⟨List.prefix_append _ _, ih isDirectory⟩

theorem leads_of_isDirectory (isDirectory : files.isDirectory path = true) :
    ∃ location, files.Leads path (.present location) := by
  obtain ⟨location, located, -⟩ := leads_of_examine (examine_of_isDirectory isDirectory)
  exact ⟨location, leads_of_locate located⟩

/-! ## Running out -/

namespace RunsOut

/-- A directory can only be made where a path runs out with its last name. -/
theorem of_makeDirectory {step : Change} (made : makeDirectory path files = .ok step) :
    ∃ here name, step = .place (here ++ [name]) .directory ∧ RunsOut files path here name [] := by
  obtain ⟨directory, name, comes, nothing, rfl⟩ := lastStep_of_makeDirectory made
  obtain ⟨isDirectory, used, few, ahead, moves, walk⟩ := lastStep_named comes
  exact ⟨directory, name, rfl, ⟨ahead, moves, used, few, walk⟩, isDirectory, nothing⟩

/-- A longer path runs out at the same place. -/
theorem extend {longer : Path} {more : List PathStep} (out : RunsOut files path here name rest)
    (isAbsolute : longer.isAbsolute = path.isAbsolute) (moves : longer.moves = path.moves ++ more) :
    RunsOut files longer here name (rest ++ more) := by
  obtain ⟨ahead, moves', used, few, walk⟩ := out.before
  refine ⟨⟨ahead, by rw [moves, moves']; simp, used, few, ?_⟩, out.isDirectory, out.nothing⟩
  rwa [startOf, isAbsolute]

/-- All but the last move of a path run out as the path does, if they come that far. -/
theorem above {above : Path} {front : List PathStep} {last last' : PathStep}
    (out : RunsOut files path here name (front ++ [last']))
    (isAbsolute : above.isAbsolute = path.isAbsolute) (moves : path.moves = above.moves ++ [last]) :
    RunsOut files above here name front ∧ last = last' := by
  obtain ⟨ahead, moves', used, few, walk⟩ := out.before
  rw [moves, ← List.cons_append, ← List.append_assoc] at moves'
  obtain ⟨same, isLast⟩ := List.append_inj' moves' rfl
  refine ⟨⟨⟨ahead, same, used, few, ?_⟩, out.isDirectory, out.nothing⟩, (List.cons.inj isLast).1⟩
  rwa [startOf, isAbsolute]

/-- A path whose last name is missing leads to where it is missing before that. -/
theorem walk_above {above : Path} {last : PathStep} (out : RunsOut files path here name [])
    (isAbsolute : above.isAbsolute = path.isAbsolute) (moves : path.moves = above.moves ++ [last]) :
    ∃ used ≤ linkLimit,
      Walks files true used (files.startOf above) above.moves (.present here) := by
  obtain ⟨ahead, moves', used, few, walk⟩ := out.before
  obtain ⟨rfl, -⟩ := List.append_inj' (moves.symm.trans moves') rfl
  refine ⟨used, few, ?_⟩
  rwa [startOf, isAbsolute]

variable (out : RunsOut files path here name rest)
include out

theorem not_leads : ¬ files.Leads path (.present location) := by
  rintro ⟨used', few', walk⟩
  obtain ⟨ahead, moves, used, few, front⟩ := out.before
  rw [moves] at walk
  exact front.none_beyond out.nothing walk

theorem moves_ne_nil : path.moves ≠ [] := by
  obtain ⟨ahead, moves, -⟩ := out.before
  simp [moves]

/-- A path runs out in one place only. -/
theorem unique (again : RunsOut files path here' name' rest') :
    here = here' ∧ name = name' ∧ rest = rest' := by
  obtain ⟨ahead, moves, used, few, walk⟩ := out.before
  obtain ⟨ahead', moves', used', few', walk'⟩ := again.before
  have nothing := out.nothing
  have nothing' := again.nothing
  rcases List.append_eq_append_iff.1 (moves.symm.trans moves') with
    ⟨between, rfl, split⟩ | ⟨between, rfl, split⟩
  · cases between with
    | nil =>
      rw [List.append_nil] at walk'
      obtain ⟨same, rfl⟩ := List.cons.inj split
      exact ⟨Found.present.inj (walk.unique walk'), PathStep.enter.inj same, rfl⟩
    | cons step between =>
      obtain ⟨rfl, -⟩ := List.cons.inj split
      exact absurd walk' (walk.none_beyond nothing)
  · cases between with
    | nil =>
      rw [List.append_nil] at walk
      obtain ⟨same, rfl⟩ := List.cons.inj split
      exact ⟨Found.present.inj (walk.unique walk'), (PathStep.enter.inj same).symm, rfl⟩
    | cons step between =>
      obtain ⟨rfl, -⟩ := List.cons.inj split
      exact absurd walk (walk'.none_beyond nothing')

/-- The missing directory can be put there. -/
theorem planted :
    Planted (here ++ [name]) .directory files (files.place (here ++ [name]) .directory) := by
  refine .place ⟨by simp, ?_, by simp [out.nothing]⟩ fun _ => out.nothing
  rw [List.dropLast_concat, out.isDirectory]

/-- New directories that lead down from where a path runs out grow along the path. -/
theorem grown {more : List PathStep} (spelled : rest = names.map .enter ++ more)
    (paved : Paved (here ++ name :: names) files other) : Grown files path other := by
  intro place
  rcases paved.get? place with same | ⟨above, nothing, made⟩
  · exact .inl same
  · refine .inr ⟨nothing, made, ?_⟩
    obtain ⟨ahead, moves, walks⟩ := out.before
    rcases List.prefix_or_prefix_of_prefix above (List.prefix_append here (name :: names)) with
      aboveHere | ⟨front, rfl⟩
    · have standing : files.get? place = some .directory := by
        by_cases same : place = here
        · rw [same, out.isDirectory]
        · exact get?_ancestor aboveHere same (by rw [out.isDirectory]; rfl)
      cases nothing.symm.trans standing
    · obtain ⟨back, split⟩ := (List.prefix_append_right_inj here).1 above
      refine ⟨ahead, front, back.map .enter ++ more, here, ?_, walks, rfl⟩
      rw [moves, spelled, ← List.append_assoc (front.map _), ← List.map_append, split]
      rfl

end RunsOut

theorem straight_of_locate (found : files.locate .target path = .ok location) :
    Straight files path := fun _ _ _ out => absurd (leads_of_locate found) out.not_leads

/-- The first part of a path that does not turn back does not either. -/
theorem Straight.front {above : Path} {more : List PathStep} (straight : Straight files path)
    (isAbsolute : above.isAbsolute = path.isAbsolute) (moves : path.moves = above.moves ++ more) :
    Straight files above := fun here name _ out turns =>
  straight here name _ (out.extend isAbsolute.symm moves) (List.mem_append_left _ turns)

theorem Straight.parent {above : Path} (straight : Straight files path)
    (parent : path.parent? = some above) : Straight files above := by
  obtain ⟨isAbsolute, ⟨noMoves, noMoves'⟩ | ⟨last, moves⟩⟩ := Path.moves_parent? parent
  · exact straight.front isAbsolute (noMoves.trans (by rw [noMoves', List.append_nil]))
  · exact straight.front isAbsolute moves

/-! ## Where a path leads once its directories have been made -/

/-- An entry that was there is still there when directories have come to stand where nothing
was. -/
theorem Planted.still_stands (planted : Planted location .directory files other)
    {place : Location} {entry : Entry} (nothing : files.get? location = none)
    (stands : files.get? place = some entry) : other.get? place = some entry := by
  rw [planted.get?]
  split
  · next same =>
    rw [same, nothing] at stands
    cases stands
  · next differ =>
    split
    · next above =>
      rcases planted.above place above differ with missing | isDirectory
      · cases missing.symm.trans stands
      · rw [← stands, isDirectory]
    · exact stands

section Made

variable (out : RunsOut files path here name (names.map .enter))
  (more : ∀ place entry, files.get? place = some entry → other.get? place = some entry)
  (sameDirectory : other.workingDirectory = files.workingDirectory)
  (made : other.get? (here ++ name :: names) = some .directory)
include out more sameDirectory made

theorem RunsOut.walk_made : ∃ used ≤ linkLimit,
    Walks other true used (other.startOf path) path.moves (.present (here ++ name :: names)) := by
  obtain ⟨ahead, moves, used, few, walk⟩ := out.before
  refine ⟨used, few, ?_⟩
  rw [moves, startOf_congr sameDirectory]
  exact (walk.extend more).append (.down made)

/-- On its way the path asks for what was there and for the directories that were made. -/
theorem RunsOut.mem_trail_made :
    ∀ seen ∈ other.trailOf path,
      (files.get? seen).isSome ∨ seen <+: here ++ name :: names := by
  obtain ⟨ahead, moves, used, few, walk⟩ := out.before
  have stands : ∀ seen ∈ files.trail linkLimit (files.startOf path) ahead,
      (files.get? seen).isSome := by
    intro seen member
    rcases walk.passes few seen member with isDirectory | ⟨target, isLink⟩
    · rw [isDirectory]
      rfl
    · rw [isLink]
      rfl
  have alike : other.trail linkLimit (files.startOf path) ahead =
      files.trail linkLimit (files.startOf path) ahead := by
    refine trail_congr fun seen member => ?_
    obtain ⟨entry, found⟩ := Option.isSome_iff_exists.1 (stands seen member)
    rw [found, more seen entry found]
  intro seen member
  rw [trailOf_eq, startOf_congr sameDirectory, moves, ← List.map_cons,
    (walk.extend more).trail_append few, alike] at member
  rcases List.mem_cons.1 member with rfl | member
  · rw [climb_append_names]
    exact .inl (by rw [walk.climb_isDirectory out.isDirectory]; rfl)
  · rcases List.mem_append.1 member with earlier | later
    · exact .inl (stands seen earlier)
    · exact .inr (above_of_mem_trail_down made _ seen later)

end Made

section Planted

variable {longer : Path} {last : PathStep} (out : RunsOut files path here name (names.map .enter))
  (planted : Planted (here ++ name :: names) .directory files other)
  (isAbsolute : longer.isAbsolute = path.isAbsolute)
include out planted isAbsolute

theorem RunsOut.walk_planted : ∃ used ≤ linkLimit,
    Walks other true used (other.startOf longer) path.moves (.present (here ++ name :: names)) := by
  have nothing : files.get? (here ++ name :: names) = none :=
    get?_below_of_nothing out.nothing ⟨names, by simp⟩
  obtain ⟨used, few, walk⟩ := out.walk_made (fun _ _ stands => planted.still_stands nothing stands)
    planted.workingDirectory planted.at_location
  refine ⟨used, few, ?_⟩
  rwa [startOf, isAbsolute]

variable (moves : longer.moves = path.moves ++ [last])
include moves

/-- Nothing is in the last directory that was made, so no entry is found there. -/
theorem RunsOut.not_leads_planted (notUp : last ≠ .up) :
    ¬ other.Leads longer (.present location) := by
  rintro ⟨used', _, walk'⟩
  obtain ⟨used, few, walk⟩ := out.walk_planted planted isAbsolute
  have nothing (entry : Name) : other.get? (here ++ name :: names ++ [entry]) = none := by
    have notAbove : ¬ here ++ name :: names ++ [entry] <+: here ++ name :: names := fun above =>
      absurd (eq_nil_of_above above) (List.cons_ne_nil entry [])
    rw [planted.elsewhere notAbove]
    exact get?_below_of_nothing out.nothing ⟨names ++ [entry], by simp⟩
  rw [moves] at walk'
  obtain ⟨_, _, further⟩ := walk.split walk'
  cases further with
  | up => exact notUp rfl
  | enter isDirectory => cases (nothing _).symm.trans isDirectory
  | other stands => cases (nothing _).symm.trans stands
  | link stands => cases (nothing _).symm.trans stands

/-- What can be made next is a directory in the last one. -/
theorem RunsOut.next (again : RunsOut other longer here' name' []) :
    here' = here ++ name :: names ∧ last = .enter name' := by
  obtain ⟨used, few, walk⟩ := out.walk_planted planted isAbsolute
  obtain ⟨ahead, moves', used', few', walk'⟩ := again.before
  obtain ⟨rfl, isLast⟩ := List.append_inj' (moves.symm.trans moves') rfl
  exact ⟨Found.present.inj (walk'.unique walk), (List.cons.inj isLast).1⟩

end Planted

/-- A path leads to the directories that were made for it and nowhere below them. -/
theorem RunsOut.site (out : RunsOut files source here name (names.map .enter))
    (checked : checkPath source = .ok ())
    (planted : Planted (here ++ name :: names ++ [entry]) .directory files other) :
    Site other source (here ++ name :: names) entry := by
  have nothing : files.get? (here ++ name :: names ++ [entry]) = none := by
    refine get?_below_of_nothing out.nothing ?_
    rw [List.append_assoc, List.prefix_append_right_inj]
    exact ⟨names ++ [entry], rfl⟩
  have more : ∀ place entry, files.get? place = some entry → other.get? place = some entry :=
    fun _ _ stands => planted.still_stands nothing stands
  have made : other.get? (here ++ name :: names) = some .directory :=
    get?_append_of_isSome (by rw [planted.at_location]; rfl) (List.cons_ne_nil entry [])
  obtain ⟨used, few, walk⟩ := out.walk_made more planted.workingDirectory made
  refine ⟨Leads.locate_directory ⟨used, few, walk.lax⟩ made checked, made, ?_⟩
  intro seen member below
  rcases out.mem_trail_made more planted.workingDirectory made seen member with
    stands | above
  · rw [get?_below_of_nothing nothing below] at stands
    cases stands
  · exact Site.child_not_above entry (below.trans above)

/-- A context that was made with the directories above it is fresh. -/
theorem RunsOut.fresh (out : RunsOut files source here name (names.map .enter))
    (nonempty : source.bytes ≠ [])
    (checked : checkPath (source.join entry.toPath) = .ok ())
    (planted : Planted (here ++ name :: names ++ [entry]) .directory files other) :
    Fresh other source (here ++ name :: names) entry ∧
      files.get? (here ++ name :: names ++ [entry]) = none := by
  have nothing : files.get? (here ++ name :: names ++ [entry]) = none :=
    get?_below_of_nothing out.nothing ⟨names ++ [entry], by simp⟩
  have checkedSource : checkPath source = .ok () :=
    checkPath_of_prefix (Path.prefix_join entry.isAbsolute_toPath) nonempty checked
  refine ⟨⟨out.site checkedSource planted, checked, ⟨rfl, fun place => ?_⟩⟩, nothing⟩
  by_cases same : place = here ++ name :: names ++ [entry]
  · rw [if_pos same, same, planted.at_location]
  · rw [if_neg same]
    split
    · next below =>
      rw [planted.elsewhere fun above => same (above.eq_of_length_le below.length_le),
        get?_below_of_nothing nothing below]
    · rfl

/-- An empty context and the directories above it have been made, all of them where nothing was. -/
structure Founded (files : FileSystem) (source more : Path) (directory : Location) (name : Name)
    (other : FileSystem) : Prop where
  named : more = name.toPath
  fresh : Fresh other source directory name
  nothing : files.get? (directory ++ [name]) = none
  grown : Grown files (source.join more) other

/-! ## Entries of a source that is no directory -/

/-- A path that asks for one entry, whether an entry can be called so or not. -/
def AsksEntry (path : Path) : Prop :=
  path.isAbsolute = false ∧
    ((∃ name : Name, path = name.toPath) ∨ path.steps = [.impossible])

section Nowhere

variable {more : Path}

theorem AsksEntry.exists_last (asks : AsksEntry more) (source : Path) :
    ∃ last, more.steps = [last] ∧ (source.join more).moves = source.moves ++ [last] ∧
      (last = .impossible ∨ ∃ entry, last = .enter entry ∧ more = entry.toPath) := by
  have moves (last : PathStep) (isMove : last.isMove) (steps : more.steps = [last]) :
      (source.join more).moves = source.moves ++ [last] := by
    rw [Path.moves_join asks.1, Path.moves, Path.moves, steps, List.filter_cons_of_pos isMove,
      List.filter_nil]
  obtain ⟨-, ⟨entry, rfl⟩ | steps⟩ := id asks
  · exact ⟨_, entry.steps_toPath, moves _ rfl entry.steps_toPath, .inr ⟨entry, rfl, rfl⟩⟩
  · exact ⟨_, steps, moves _ rfl steps, .inl rfl⟩

theorem AsksEntry.bytes_ne_nil (asks : AsksEntry more) : more.bytes ≠ [] := by
  intro empty
  obtain ⟨last, steps, -⟩ := asks.exists_last ⟨[]⟩
  rw [Path.steps_of_empty empty] at steps
  cases steps

variable (asks : AsksEntry more) (nonempty : source.bytes ≠ [])
  (nowhere : ∀ directory, files.locate .target source = .ok directory →
    files.get? directory ≠ some .directory)
include asks nonempty nowhere

theorem not_walks_nowhere (checked : checkPath (source.join more) = .ok ()) {used : Nat}
    (few : used ≤ linkLimit) (isDirectory : files.get? here = some .directory) :
    ¬ Walks files true used (files.startOf source) source.moves (.present here) := by
  intro walk
  have checkedSource : checkPath source = .ok () :=
    checkPath_of_prefix (Path.prefix_join asks.1) nonempty checked
  exact nowhere here (Leads.locate_directory ⟨used, few, walk.lax⟩ isDirectory checkedSource)
    isDirectory

theorem not_leads_nowhere (checked : checkPath (source.join more) = .ok ()) :
    ¬ files.Leads (source.join more) (.present here) := by
  rintro ⟨used, few, walk⟩
  obtain ⟨last, -, moves, ends⟩ := asks.exists_last source
  obtain ⟨left, fewLeft, middle, front, stands⟩ := walk.before moves
  rw [Path.startOf_join files asks.1] at front walk
  rcases ends with rfl | ⟨entry, rfl, -⟩
  · rw [moves] at walk
    obtain ⟨_, -, impossible⟩ := front.split walk
    cases impossible
  · obtain ⟨_, stands⟩ := Option.isSome_iff_exists.1 (stands entry rfl)
    have isDirectory := get?_of_child stands
    exact not_walks_nowhere asks nonempty nowhere checked (fewLeft.trans few) isDirectory front

/-- No entry is found in a directory that is not there. -/
theorem locate_entry_nowhere : ∃ fault, files.locate .entry (source.join more) = .error fault := by
  obtain ⟨last, steps, -, ends⟩ := asks.exists_last source
  have decides : Decides last [] (source.join more).endsWithSlash := by
    rcases ends with isImpossible | ⟨entry, -, rfl⟩
    · exact .inl isImpossible
    · refine .inr ⟨rfl, ?_⟩
      rw [Path.endsWithSlash_join entry.isAbsolute_toPath entry.bytes_toPath_ne_nil,
        entry.endsWithSlash_toPath]
  rw [locate, resolve_eq, Path.steps_join asks.1, steps, Path.startOf_join files asks.1,
    travel_entry_append decides]
  cases checked : checkPath (source.join more) with
  | error fault => exact ⟨fault, rfl⟩
  | ok =>
    cases comes : travel files linkLimit ⟨files.startOf source, source.steps, .target, true⟩ with
    | error fault => exact ⟨fault, rfl⟩
    | ok found =>
      cases found with
      | absent directory name => exact ⟨.notFound, rfl⟩
      | present place =>
        obtain ⟨used, few, walk⟩ := walks_of_travel (by simp) comes
        rcases ends with rfl | ⟨entry, rfl, -⟩
        · exact ⟨.nameTooLong, rfl⟩
        · have nothing : files.get? (place ++ [entry]) = none := by
            by_contra stands
            obtain ⟨_, stands⟩ := Option.ne_none_iff_exists'.1 stands
            have isDirectory := get?_of_child stands
            exact not_walks_nowhere asks nonempty nowhere checked few isDirectory walk
          simp only [Except.bind, finish_enter, nothing]
          exact ⟨.notFound, rfl⟩

end Nowhere

end ImageStaging.FileSystem
