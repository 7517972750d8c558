import Mathlib.Data.List.Induction
import ImageStaging.FileSystem.Change
import ImageStaging.Proofs.FileSystem.Trail
import ImageStaging.Proofs.Path.Descent

/-!
# A directory that is worked in

`Confined` describes the files while work goes on in one directory: outside it they are as they
were at the start, inside it there are files and directories only, and a path leads to it, through
directories that stay if it leads through the inside. A path that descends from there can then only
come to the place that its names spell, so a lookup that succeeds tells where it came to.
-/

namespace ImageStaging.FileSystem

/-- Strictly below a location. -/
def Inner (root location : Location) : Prop :=
  root <+: location ∧ location ≠ root

theorem Inner.ne {root location : Location} (inner : Inner root location) : location ≠ root :=
  inner.2

theorem eq_nil_of_above {location rest : Location} (above : location ++ rest <+: location) :
    rest = [] := by
  have further : location ++ rest <+: location ++ [] := by rwa [List.append_nil]
  exact List.prefix_nil.1 ((List.prefix_append_right_inj location).1 further)

/-- What is below a location that is strictly below another one is so, too. -/
theorem inner_of_below {root rest place : Location} (proper : rest ≠ [])
    (below : root ++ rest <+: place) : Inner root place := by
  refine ⟨(List.prefix_append _ _).trans below, ?_⟩
  rintro rfl
  exact proper (eq_nil_of_above below)

theorem inner_append {root : Location} {names : List Name} (some : names ≠ []) :
    Inner root (root ++ names) :=
  inner_of_below some List.prefix_rfl

/-- Two file systems differ at most strictly below a location. -/
structure Reworked (root : Location) (files other : FileSystem) : Prop where
  workingDirectory : other.workingDirectory = files.workingDirectory
  get? : ∀ location, ¬ Inner root location → other.get? location = files.get? location

theorem Reworked.agreeOff {root : Location} {files other : FileSystem}
    (reworked : Reworked root files other) : AgreeOff root files other :=
  ⟨reworked.workingDirectory, fun location off => reworked.get? location fun inner => off inner.1⟩

/-- The entries at and below a location are files and directories. -/
def Plain (files : FileSystem) (root : Location) : Prop :=
  ∀ names entry, files.get? (root ++ names) = some entry → entry = .directory ∨ entry.isFile = true

section Plain

variable {files : FileSystem} {region here location : Location} {path : Path} {name : Name}

theorem Plain.child (plain : files.Plain here) (name : Name) : files.Plain (here ++ [name]) := by
  intro names entry stands
  rw [List.append_assoc] at stands
  exact plain _ entry stands

theorem Plain.trail_enter (plain : files.Plain (here ++ [name])) (links : Nat)
    (ahead : List PathStep) :
    files.trail links here (.enter name :: ahead) =
      (here ++ [name]) :: if files.get? (here ++ [name]) = some .directory then
        files.trail links (here ++ [name]) ahead else [] := by
  cases stands : files.get? (here ++ [name]) with
  | none => cases links <;> simp [trail, descendTrail, stands]
  | some entry =>
    rw [← List.append_nil (here ++ [name])] at stands
    rcases plain [] entry stands with rfl | isFile
    · rw [List.append_nil] at stands
      rw [trail_enter_directory stands, if_pos rfl]
    · rw [List.append_nil] at stands
      cases entry with
      | file content executable => cases links <;> simp [trail, descendTrail, stands]
      | directory => cases isFile
      | link target => cases isFile
      | fullDevice => cases isFile

/-- A lookup that goes on below an entry without links stays there. -/
theorem Plain.prefix_of_mem_trail (plain : files.Plain here) {links : Nat} (names : List Name) :
    ∀ location ∈ files.trail links here (names.map .enter), here <+: location := by
  induction names generalizing here with
  | nil =>
    intro location member
    rw [List.map_nil, trail_nil] at member
    cases member
  | cons name rest ih =>
    intro location member
    rw [List.map_cons, (plain.child name).trail_enter] at member
    rcases List.mem_cons.1 member with rfl | further
    · exact List.prefix_append _ _
    · split at further
      · exact (List.prefix_append _ _).trans (ih (plain.child name) location further)
      · cases further

theorem plain_of_entries
    (noLinks : ∀ item ∈ files.entries, here <+: item.1 →
      item.2 = .directory ∨ item.2.isFile = true) : files.Plain here := by
  intro names entry stands
  rw [get?, find] at stands
  split at stands
  · exact .inl (Option.some.inj stands).symm
  · obtain ⟨front, back, split, _⟩ := List.lookup_eq_some_iff.1 stands
    refine noLinks (here ++ names, entry) ?_ (List.prefix_append _ _)
    rw [split]
    exact List.mem_append_right _ List.mem_cons_self

/-- An entry without links is apart from any region beside it. -/
theorem apart_of_plain (leads : files.Leads path (.present location))
    (isDirectory : files.get? location = some .directory) (avoids : files.Avoids region path)
    (plain : files.Plain (location ++ [name])) (notBelow : ¬ region <+: location ++ [name])
    (notAbove : ¬ location ++ [name] <+: region) : files.Apart region (path.join name.toPath) := by
  intro names seen member inside
  have relative := Name.isAbsolute_toPath name
  have moves : ((path.join name.toPath).below names).moves =
      path.moves ++ (name :: names).map .enter := by
    rw [Path.moves_below, Path.moves_join relative, Name.moves_toPath, List.append_assoc]
    rfl
  obtain ⟨left, trail⟩ := leads.trailOf_append isDirectory
    ((Path.startOf_below files _ names).trans (Path.startOf_join files relative)) moves
  rw [trail, List.mem_append, List.map_cons, plain.trail_enter, List.mem_cons] at member
  have comparable : location ++ [name] <+: seen → False := fun below =>
    (List.prefix_or_prefix_of_prefix inside below).elim notBelow notAbove
  rcases member with earlier | rfl | later
  · exact avoids seen earlier inside
  · exact comparable List.prefix_rfl
  · split at later
    · exact comparable (plain.prefix_of_mem_trail names seen later)
    · cases later

end Plain

/-- The files while work goes on at the location that a base path leads to. -/
structure Confined (start : FileSystem) (base : Path) (root : Location) (files : FileSystem) :
    Prop where
  agree : AgreeOff root start files
  isDirectory : files.get? root = some .directory
  plain : files.Plain root
  locate : files.locate .target base = .ok root
  /-- If the way to the location leads through the inside, it leads through directories. -/
  clear : ∀ location ∈ files.trail linkLimit (files.startOf base) base.steps,
    Inner root location → files.get? location = some .directory

/-! ## Directories above an entry -/

theorem get?_append_of_isSome {files : FileSystem} {front back : Location}
    (some : (files.get? (front ++ back)).isSome) (proper : back ≠ []) :
    files.get? front = Option.some .directory := by
  induction back using List.reverseRecOn with
  | nil => exact absurd rfl proper
  | append_singleton middle last ih =>
    rw [← List.append_assoc] at some
    have parent := get?_parent_of_isSome (by simp) some
    rw [List.dropLast_concat] at parent
    by_cases empty : middle = []
    · simpa [empty] using parent
    · exact ih (by simp [parent]) empty

theorem get?_ancestor {files : FileSystem} {above location : Location}
    (isAbove : above <+: location) (differ : above ≠ location)
    (some : (files.get? location).isSome) : files.get? above = Option.some .directory := by
  obtain ⟨back, rfl⟩ := isAbove
  exact get?_append_of_isSome some (by simpa using differ.symm)

theorem get?_below_of_not_directory {files : FileSystem} {location : Location}
    (notDirectory : files.get? location ≠ some .directory) {back : Location} (proper : back ≠ []) :
    files.get? (location ++ back) = none := by
  by_contra standing
  exact notDirectory (get?_append_of_isSome (Option.isSome_iff_ne_none.2 standing) proper)

theorem get?_below_of_nothing {files : FileSystem} {location place : Location}
    (nothing : files.get? location = none) (below : location <+: place) :
    files.get? place = none := by
  by_contra standing
  have stands := Option.isSome_iff_ne_none.2 standing
  by_cases same : location = place
  · exact standing (same ▸ nothing)
  · cases nothing.symm.trans (get?_ancestor below same stands)

/-! ## Walks without links -/

/-- A walk among files and directories comes to the place that its names spell. -/
theorem Walks.of_plain {files : FileSystem} {strict : Bool} {used : Nat} {here : Location}
    {names : List Name} {found : Found} (isDirectory : files.get? here = some .directory)
    (plain : files.Plain here) (walk : Walks files strict used here (names.map .enter) found) :
    (found = .present (here ++ names) ∧ (files.get? (here ++ names)).isSome) ∨
      ∃ front last, names = front ++ [last] ∧ found = .absent (here ++ front) last ∧
        files.get? (here ++ names) = none ∧ files.get? (here ++ front) = some .directory := by
  induction names generalizing here used with
  | nil =>
    obtain ⟨_, rfl⟩ := walk.nil
    exact .inl (by simp [isDirectory])
  | cons name rest ih =>
    have plainBelow : files.Plain (here ++ [name]) := fun names entry stands =>
      plain (name :: names) entry (by simpa using stands)
    rw [List.map_cons] at walk
    generalize isRest : rest.map PathStep.enter = steps at walk
    cases walk with
    | enter directoryBelow walk =>
      rw [← isRest] at walk
      rcases ih directoryBelow plainBelow walk with ⟨rfl, stands⟩ | ⟨front, last, rfl, rfl, rest⟩
      · exact .inl (by simpa using stands)
      · exact .inr ⟨name :: front, last, by simpa using rest⟩
    | other stands =>
      obtain rfl : rest = [] := by simpa using isRest
      exact .inl ⟨rfl, by simp [stands]⟩
    | missing nothing =>
      obtain rfl : rest = [] := by simpa using isRest
      exact .inr ⟨[], name, by simpa [nothing] using isDirectory⟩
    | link stands =>
      rcases plain [name] _ stands with impossible | impossible
      · cases impossible
      · cases impossible

theorem examine_of_isDirectory {files : FileSystem} {path : Path}
    (isDirectory : files.isDirectory path = true) : files.examine path = .ok .directory := by
  rw [FileSystem.isDirectory] at isDirectory
  split at isDirectory
  · next found => exact found
  · cases isDirectory

namespace Confined

variable {start files other : FileSystem} {base path : Path} {root : Location} {names : List Name}
  {purpose : Purpose} {found : Found} {location : Location}

/-- The directory can be worked in as long as the directories in it stay. -/
theorem rework (confined : Confined start base root files) (reworked : Reworked root files other)
    (plain : other.Plain root)
    (stays : ∀ place, Inner root place → files.get? place = some .directory →
      other.get? place = some .directory) : Confined start base root other := by
  have agree : ∀ location ∈ files.trail linkLimit (files.startOf base) base.steps,
      other.get? location = files.get? location := by
    intro location member
    by_cases inner : Inner root location
    · have isDirectory := confined.clear location member inner
      rw [isDirectory, stays location inner isDirectory]
    · exact reworked.get? location inner
  refine ⟨confined.agree.trans reworked.agreeOff, ?_, plain, ?_, ?_⟩
  · rw [reworked.get? root fun inner => inner.ne rfl, confined.isDirectory]
  · have found := confined.locate
    rw [locate_eq_ok_iff] at found ⊢
    rw [resolve_congr reworked.workingDirectory fun location member =>
      sameKind_of_eq (agree location member), found]
  · rw [startOf_congr reworked.workingDirectory, trail_congr agree]
    intro location member inner
    exact stays location inner (confined.clear location member inner)

/-- Work can begin in a directory without links, wherever the way to it leads. -/
theorem of_plain (found : files.locate .target base = .ok root)
    (isDirectory : files.get? root = some .directory) (plain : files.Plain root) :
    Confined files base root files := by
  refine ⟨.refl _ _, isDirectory, plain, found, ?_⟩
  obtain ⟨used, few, walk⟩ := leads_of_locate found
  have strictly := walk.strict_of_directory isDirectory
  rw [← trail_filter]
  intro location member inner
  rcases strictly.passes few location member with isDirectory | ⟨target, isLink⟩
  · exact isDirectory
  · obtain ⟨names, rfl⟩ := inner.1
    rcases plain names _ isLink with impossible | impossible
    · cases impossible
    · cases impossible

variable (confined : Confined start base root files)
include confined

theorem get?_above (above : location <+: root) : files.get? location = some .directory := by
  by_cases same : location = root
  · rw [same, confined.isDirectory]
  · exact get?_ancestor above same (by simp [confined.isDirectory])

theorem walk_base : ∃ links ≤ linkLimit,
    Walks files true links (files.startOf base) base.moves (.present root) := by
  obtain ⟨links, few, walk⟩ := leads_of_locate confined.locate
  exact ⟨links, few, walk.strict_of_directory confined.isDirectory⟩

theorem walk_descending {strict : Bool} {used : Nat}
    (walk : Walks files strict used (files.startOf base) (base.moves ++ names.map .enter) found) :
    (found = .present (root ++ names) ∧ (files.get? (root ++ names)).isSome) ∨
      ∃ front last, names = front ++ [last] ∧ found = .absent (root ++ front) last ∧
        files.get? (root ++ names) = none ∧ files.get? (root ++ front) = some .directory := by
  obtain ⟨_, _, first⟩ := confined.walk_base
  obtain ⟨_, _, further⟩ := first.split walk
  exact further.of_plain confined.isDirectory confined.plain

variable (descends : Path.Descends base names path)
include descends

theorem found_of_resolve (follows : purpose ≠ .entry)
    (comes : files.resolve purpose path = .ok found) :
    (found = .present (root ++ names) ∧ (files.get? (root ++ names)).isSome) ∨
      ∃ front last, names = front ++ [last] ∧ found = .absent (root ++ front) last ∧
        files.get? (root ++ names) = none ∧ files.get? (root ++ front) = some .directory := by
  obtain ⟨_, _, walk⟩ := leads_of_resolve follows comes
  rw [descends.startOf, descends.moves] at walk
  exact confined.walk_descending walk

theorem located (found : files.locate .target path = .ok location) :
    location = root ++ names ∧ (files.get? (root ++ names)).isSome := by
  rcases confined.found_of_resolve descends (by decide) (locate_eq_ok_iff.1 found) with
    ⟨same, stands⟩ | ⟨_, _, _, impossible, _⟩
  · exact ⟨Found.present.inj same, stands⟩
  · cases impossible

theorem examined {entry : Entry} (found : files.examine path = .ok entry) :
    files.get? (root ++ names) = some entry := by
  rw [examine] at found
  cases place : files.locate .target path with
  | error fault => rw [place] at found; cases found
  | ok location =>
    obtain ⟨rfl, stands⟩ := confined.located descends place
    rw [place] at found
    obtain ⟨entry', stands'⟩ := Option.isSome_iff_exists.1 stands
    simp only [bind, Except.bind, pure, Except.pure, stands', Option.getD_some,
      Except.ok.injEq] at found
    rw [stands', found]

/-- A place at which a path allows a file to be written. -/
theorem writable_at {entry : Option Entry} (found : files.writable path = .ok (location, entry)) :
    location = root ++ names ∧ names ≠ [] ∧ entry = files.get? (root ++ names) ∧
      entry ≠ some .directory ∧ ∀ front last, names = front ++ [last] →
        files.get? (root ++ front) = some .directory := by
  cases answer : files.resolve .creation path with
  | error fault => rw [writable, answer] at found; cases found
  | ok ending =>
    rcases confined.found_of_resolve descends (by decide) answer with
      ⟨rfl, stands⟩ | ⟨front, last, rfl, rfl, nothing, isDirectory⟩
    · obtain ⟨rfl, standing, rfl, isStanding, notDirectory⟩ := writable_of_present answer found
      have proper : names ≠ [] := by
        rintro rfl
        rw [List.append_nil, confined.isDirectory] at isStanding
        exact notDirectory (Option.some.inj isStanding).symm
      refine ⟨rfl, proper, isStanding.symm, fun same => notDirectory (Option.some.inj same), ?_⟩
      rintro front last rfl
      rw [← List.append_assoc] at stands
      exact get?_append_of_isSome stands (by simp)
    · obtain ⟨-, rfl, rfl⟩ := writable_of_absent answer found
      refine ⟨by simp, by simp, nothing.symm, by simp, ?_⟩
      intro front' last' same
      obtain ⟨rfl, _⟩ := List.append_inj' same rfl
      exact isDirectory

end Confined

end ImageStaging.FileSystem
