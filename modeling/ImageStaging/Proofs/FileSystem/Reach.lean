import ImageStaging.Proofs.FileSystem.Missing

/-!
# Where a path leads once its directories are made

A path reaches the directory that it leads to or, if it runs out and does not turn back, the one
that it leads to once its missing directories are made. The entry of a path has its place in the
directory that the parent of the path reaches, whether or not that is there yet. Making some of the
directories leaves the places of such entries as they were, and so an edit of one entry is told by
`Altered`: nothing else is different.
-/

namespace ImageStaging.FileSystem

variable {files other middle third : FileSystem} {path above longer sibling : Path}
  {here directory location place : Location} {name : Name} {names : List Name} {entry : Option Entry}

/-- The path leads to a directory, or to a working directory that was taken away. -/
def Comes (files : FileSystem) (path : Path) (here : Location) : Prop :=
  ∃ used ≤ linkLimit, Walks files true used (files.startOf path) path.moves (.present here)

/-- The directory that a path leads to, or will lead to when its missing directories are made. -/
inductive Reaches (files : FileSystem) (path : Path) : Location → Prop
  | there {here : Location} (comes : files.Comes path here) : Reaches files path here
  | made {here : Location} {name : Name} {names : List Name}
      (out : RunsOut files path here name (names.map .enter)) :
      Reaches files path (here ++ name :: names)

/-- The place of the entry that a path names, in the directory that its parent reaches. -/
def EntryAt (files : FileSystem) (path : Path) (place : Location) : Prop :=
  ∃ above name directory, path.parent? = some above ∧ path.moves = above.moves ++ [.enter name] ∧
    files.Reaches above directory ∧ place = directory ++ [name]

/-! ## Leading to a directory -/

/-- A strict walk looks at directories and links only. -/
theorem Walks.kept {used : Nat} {ahead : List PathStep}
    (walk : Walks files true used here ahead (.present location))
    (directories : ∀ place, files.get? place = some .directory → other.get? place = some .directory)
    (links : ∀ place target, files.get? place = some (.link target) →
      other.get? place = some (.link target)) :
    Walks other true used here ahead (.present location) := by
  generalize ending : Found.present location = found at walk ⊢
  induction walk with
  | arrive => exact .arrive
  | up _ ih => exact .up (ih ending)
  | enter isDirectory _ ih => exact .enter (directories _ isDirectory) (ih ending)
  | other _ _ _ lax => cases lax
  | missing => cases ending
  | link stands _ ih => exact .link (links _ _ stands) (ih ending)

namespace Comes

theorem leads (comes : files.Comes path here) : files.Leads path (.present here) := by
  obtain ⟨used, few, walk⟩ := comes
  exact ⟨used, few, walk.lax⟩

theorem unique (comes : files.Comes path here) (again : files.Comes path directory) :
    here = directory :=
  Found.present.inj (comes.leads.unique again.leads)

theorem of_moves (comes : files.Comes path here) (isAbsolute : above.isAbsolute = path.isAbsolute)
    (moves : above.moves = path.moves) : files.Comes above here := by
  rwa [Comes, moves, startOf, isAbsolute]

theorem kept (comes : files.Comes path here)
    (sameDirectory : other.workingDirectory = files.workingDirectory)
    (directories : ∀ place, files.get? place = some .directory → other.get? place = some .directory)
    (links : ∀ place target, files.get? place = some (.link target) →
      other.get? place = some (.link target)) : other.Comes path here := by
  obtain ⟨used, few, walk⟩ := comes
  rw [← startOf_congr sameDirectory] at walk
  exact ⟨used, few, walk.kept directories links⟩

end Comes

theorem Leads.comes (leads : files.Leads path (.present location))
    (isDirectory : files.get? location = some .directory) : files.Comes path location := by
  obtain ⟨used, few, walk⟩ := leads
  exact ⟨used, few, walk.strict_of_directory isDirectory⟩

theorem comes_of_isDirectory (isDirectory : files.isDirectory path = true) :
    ∃ location, files.Comes path location := by
  obtain ⟨location, located, kind⟩ := leads_of_examine (examine_of_isDirectory isDirectory)
  obtain ⟨used, few, walk⟩ := leads_of_locate located
  refine ⟨location, used, few, walk.strict_of_not_file fun entry stands => ?_⟩
  rwa [stands, Option.getD_some] at kind

/-! ## Reaching a directory -/

namespace Reaches

theorem unique (reaches : files.Reaches path here) (again : files.Reaches path directory) :
    here = directory := by
  cases reaches with
  | there comes =>
    cases again with
    | there comes' => exact comes.unique comes'
    | made out => exact absurd comes.leads out.not_leads
  | made out =>
    cases again with
    | there comes => exact absurd comes.leads out.not_leads
    | made out' =>
      obtain ⟨rfl, rfl, same⟩ := out.unique out'
      rw [List.map_injective_iff.2 Path.enter_injective same]

theorem of_moves (reaches : files.Reaches path here)
    (isAbsolute : above.isAbsolute = path.isAbsolute) (moves : above.moves = path.moves) :
    files.Reaches above here := by
  cases reaches with
  | there comes => exact .there (comes.of_moves isAbsolute moves)
  | made out =>
    have longer := out.extend isAbsolute (moves.trans (List.append_nil _).symm)
    rw [List.append_nil] at longer
    exact .made longer

end Reaches

section Entry

variable (isAbsolute : above.isAbsolute = path.isAbsolute)
  (moves : path.moves = above.moves ++ [.enter name]) (reaches : files.Reaches above directory)
include isAbsolute moves reaches

/-- Whatever the parent of the path is spelled like, the entry has its place where it reaches. -/
theorem EntryAt.of_reaches : files.EntryAt path (directory ++ [name]) := by
  obtain ⟨parent, found⟩ :=
    Option.isSome_iff_exists.1 (Path.parent?_isSome (moves ▸ List.concat_ne_nil _ _))
  obtain ⟨isAbsolute', ⟨noMoves, -⟩ | ⟨last, split⟩⟩ := Path.moves_parent? found
  · rw [moves] at noMoves
    simp at noMoves
  · obtain ⟨same, isLast⟩ := List.append_inj' (split.symm.trans moves) rfl
    exact ⟨parent, name, directory, found, split.trans (by rw [isLast]),
      reaches.of_moves (isAbsolute'.trans isAbsolute.symm) same, rfl⟩

theorem EntryAt.eq (entryAt : files.EntryAt path place) : place = directory ++ [name] := by
  obtain ⟨parent, name', directory', found, split, reaches', rfl⟩ := entryAt
  obtain ⟨same, isLast⟩ := List.append_inj' (split.symm.trans moves) rfl
  obtain ⟨isAbsolute', -⟩ := Path.moves_parent? found
  have again := reaches.of_moves (isAbsolute'.trans isAbsolute.symm) same
  rw [reaches'.unique again, PathStep.enter.inj (List.cons.inj isLast).1]

end Entry

/-! ## Some of the missing directories -/

/-- Nothing is different, or some of the directories have been made that a path is missing. -/
def Laid (files : FileSystem) (path : Path) (other : FileSystem) : Prop :=
  Same files other ∨ ∃ here name names more,
    RunsOut files path here name (names.map .enter ++ more) ∧
      Paved (here ++ name :: names) files other

/-- What is new in the middle is a directory and still there. -/
structure Between (files other middle : FileSystem) : Prop where
  workingDirectory : middle.workingDirectory = files.workingDirectory
  get? : ∀ place, middle.get? place = files.get? place ∨ (files.get? place = none ∧
    middle.get? place = some .directory ∧ other.get? place = some .directory)

namespace Between

theorem refl (files : FileSystem) : Between files files files := ⟨rfl, fun _ => .inl rfl⟩

theorem further (between : Between files other middle) (location : Location) :
    Between files (other.place location .directory) middle := by
  refine ⟨between.workingDirectory, fun place => (between.get? place).imp_right ?_⟩
  rintro ⟨nothing, made, later⟩
  refine ⟨nothing, made, ?_⟩
  rw [get?_place, later]
  split <;> rfl

theorem made (between : Between files other other) (nothing : other.get? location = none) :
    Between files (other.place location .directory) (other.place location .directory) := by
  refine ⟨(workingDirectory_place _ _ _).trans between.workingDirectory, fun place => ?_⟩
  rw [get?_place]
  split
  · next new =>
    refine .inr ⟨?_, rfl, rfl⟩
    rcases between.get? place with same | ⟨before, -⟩
    · rw [← same, new.2, nothing]
    · exact before
  · exact between.get? place

end Between

namespace Laid

theorem refl (files : FileSystem) (path : Path) : Laid files path files := .inl (.refl files)

theorem workingDirectory (laid : Laid files path other) :
    other.workingDirectory = files.workingDirectory := by
  rcases laid with same | ⟨_, _, _, _, -, paved⟩
  · exact same.workingDirectory
  · exact paved.workingDirectory

theorem still_stands (laid : Laid files path other) {entry : Entry}
    (stands : files.get? place = some entry) : other.get? place = some entry := by
  rcases laid with same | ⟨_, _, _, _, -, paved⟩
  · exact (same.get? place).trans stands
  · rcases paved.get? place with same | ⟨-, nothing, -⟩
    · exact same.trans stands
    · cases nothing.symm.trans stands

theorem grown (laid : Laid files path other) : Grown files path other := by
  rcases laid with same | ⟨_, _, _, _, out, paved⟩
  · exact fun place => .inl (same.get? place)
  · exact out.grown rfl paved

/-- What stands in the directory that the path reaches stands there as before. -/
theorem get?_child (laid : Laid files path other) (reaches : files.Reaches path directory)
    (name : Name) : other.get? (directory ++ [name]) = files.get? (directory ++ [name]) := by
  rcases laid with same | ⟨here, first, names, more, out, paved⟩
  · exact same.get? _
  · refine (paved.get? _).resolve_right ?_
    rintro ⟨above, -, -⟩
    cases reaches with
    | there comes => exact out.not_leads comes.leads
    | @made here' first' all out' =>
      obtain ⟨rfl, rfl, whole⟩ := out.unique out'
      have shorter : names.length ≤ all.length := by
        have := congrArg List.length whole
        simp only [List.length_append, List.length_map] at this
        omega
      have := above.length_le
      simp only [List.length_append, List.length_cons, List.length_nil] at this
      omega

/-- Fewer of the directories are some of them, too. -/
theorem between (laid : Laid files path other) (between : Between files other middle) :
    Laid files path middle := by
  rcases laid with same | ⟨here, name, names, more, out, paved⟩
  · refine .inl ⟨between.workingDirectory, fun place => ?_⟩
    refine (between.get? place).resolve_right ?_
    rintro ⟨nothing, -, made⟩
    rw [same.get?, nothing] at made
    cases made
  · refine .inr ⟨here, name, names, more, out, between.workingDirectory, fun place => ?_⟩
    refine (between.get? place).imp_right ?_
    rintro ⟨nothing, made, later⟩
    refine ⟨?_, nothing, made⟩
    rcases paved.get? place with same | ⟨above, -⟩
    · rw [same, nothing] at later
      cases later
    · exact above

end Laid

/-! ## One entry -/

/-- Nothing is different but what stands at one location. -/
structure Altered (location : Location) (entry : Option Entry) (files other : FileSystem) :
    Prop where
  workingDirectory : other.workingDirectory = files.workingDirectory
  get? : ∀ place, other.get? place = if place = location then entry else files.get? place

namespace Altered

theorem refl (stands : files.get? location = entry) : Altered location entry files files := by
  refine ⟨rfl, fun place => ?_⟩
  split
  · next same => rw [same, stands]
  · rfl

theorem of_place (accepts : files.Accepts location) (entry : Entry) :
    Altered location entry files (files.place location entry) := by
  refine ⟨workingDirectory_place _ _ _, fun place => ?_⟩
  rw [get?_place]
  simp only [accepts, true_and]

theorem of_prune (notDirectory : files.get? location ≠ some .directory) :
    Altered location none files (files.prune location) := by
  have proper : location ≠ [] := by
    rintro rfl
    exact notDirectory (get?_root files)
  refine ⟨workingDirectory_prune _ _, fun place => ?_⟩
  rw [get?_prune proper]
  by_cases same : place = location
  · rw [if_pos (same ▸ List.prefix_rfl), if_pos same]
  · rw [if_neg same]
    split
    · next below =>
      obtain ⟨rest, rfl⟩ := below
      exact (get?_below_of_not_directory notDirectory (by simpa using same)).symm
    · rfl

theorem trans {entry' : Option Entry} (first : Altered location entry files other)
    (second : Altered location entry' other third) : Altered location entry' files third := by
  refine ⟨second.workingDirectory.trans first.workingDirectory, fun place => ?_⟩
  rw [second.get?]
  split
  · rfl
  · next differ => rw [first.get?, if_neg differ]

theorem at_location (altered : Altered location entry files other) :
    other.get? location = entry := by
  rw [altered.get?, if_pos rfl]

theorem elsewhere (altered : Altered location entry files other) (differ : place ≠ location) :
    other.get? place = files.get? place := by
  rw [altered.get?, if_neg differ]

/-- Paths lead where they led if neither a directory nor a link has made way. -/
theorem comes (altered : Altered location entry files other)
    (notDirectory : files.get? location ≠ some .directory)
    (notLink : ∀ target, files.get? location ≠ some (.link target))
    (comes : files.Comes path here) : other.Comes path here := by
  refine comes.kept altered.workingDirectory (fun place stands => ?_) fun place target stands => ?_
  · rw [altered.elsewhere, stands]
    rintro rfl
    exact notDirectory stands
  · rw [altered.elsewhere, stands]
    rintro rfl
    exact notLink target stands

end Altered

/-! ## Writing an entry -/

theorem not_directory_of_writable (found : files.writable path = .ok (location, entry))
    (answer : files.resolve .creation path = .ok (.present here)) :
    files.get? here ≠ some .directory := by
  obtain ⟨-, standing, -, stands, notDirectory⟩ := writable_of_present answer found
  rw [stands]
  exact fun same => notDirectory (Option.some.inj same)

/-- A file that can be written where a path asks for an entry is in the directory that the path
leads to before that, unless a link stands in its place. -/
theorem writable_last {last : PathStep} (isAbsolute : above.isAbsolute = path.isAbsolute)
    (moves : path.moves = above.moves ++ [last]) (notUp : last ≠ .up)
    (found : files.writable path = .ok (location, entry)) :
    ∃ name directory, last = .enter name ∧ files.Comes above directory ∧
      files.get? directory = some .directory ∧ checkPath path = .ok () ∧
      ((∃ target, files.get? (directory ++ [name]) = some (.link target)) ∨
        (location = directory ++ [name] ∧ entry = files.get? location ∧
          entry ≠ some .directory)) := by
  cases answer : files.resolve .creation path with
  | error fault => rw [writable, answer] at found; cases found
  | ok ending =>
    obtain ⟨used, few, walk⟩ := leads_of_resolve (by decide) answer
    obtain ⟨left, fewLeft, directory, front⟩ := walk.front moves
    rw [moves] at walk
    obtain ⟨_, -, step⟩ := front.split walk
    have startOf : files.startOf path = files.startOf above := by
      rw [FileSystem.startOf, FileSystem.startOf, isAbsolute]
    rw [startOf] at front
    have comes : files.Comes above directory := ⟨left, fewLeft.trans few, front⟩
    have checked := checkPath_of_resolve answer
    cases step with
    | up => exact absurd rfl notUp
    | @enter _ _ name _ _ isDirectory rest =>
      obtain ⟨-, rfl⟩ := rest.nil
      exact absurd isDirectory (not_directory_of_writable found answer)
    | @other _ name _ stands notDirectory =>
      obtain ⟨rfl, standing, rfl, isStanding, isOther⟩ := writable_of_present answer found
      exact ⟨name, directory, rfl, comes, get?_of_child stands, checked, .inr ⟨rfl,
        isStanding.symm, fun same => isOther (Option.some.inj same)⟩⟩
    | @missing _ name nothing =>
      obtain ⟨isDirectory, rfl, rfl⟩ := writable_of_absent answer found
      have notDirectory := (Option.some_ne_none Entry.directory).symm
      exact ⟨name, directory, rfl, comes, isDirectory, checked,
        .inr ⟨rfl, nothing.symm, notDirectory⟩⟩
    | @link _ _ name target _ _ stands =>
      exact ⟨name, directory, rfl, comes, get?_of_child stands, checked, .inl ⟨target, stands⟩⟩

theorem writable_join (asks : AsksEntry sibling)
    (found : files.writable (above.join sibling) = .ok (location, entry)) :
    ∃ name directory, sibling = name.toPath ∧ files.Comes above directory ∧
      files.get? directory = some .directory ∧ checkPath (above.join sibling) = .ok () ∧
      ((∃ target, files.get? (directory ++ [name]) = some (.link target)) ∨
        (location = directory ++ [name] ∧ entry = files.get? location ∧
          entry ≠ some .directory)) := by
  obtain ⟨last, -, moves, ends⟩ := asks.exists_last above
  have notUp : last ≠ .up := by
    rcases ends with rfl | ⟨name, rfl, -⟩ <;> simp
  obtain ⟨name, directory, rfl, written⟩ :=
    writable_last (Path.isAbsolute_join asks.1).symm moves notUp found
  rcases ends with impossible | ⟨name', same, rfl⟩
  · cases impossible
  · obtain rfl := PathStep.enter.inj same
    exact ⟨name, directory, rfl, written⟩

/-- The last move of a path at which a file can be written is a name. -/
theorem moves_of_writable (found : files.writable path = .ok (location, entry)) :
    ∃ front name, path.moves = front ++ [.enter name] := by
  cases answer : files.resolve .creation path with
  | error fault => rw [writable, answer] at found; cases found
  | ok ending =>
    cases ending with
    | present here =>
      obtain ⟨name, ends⟩ := endsInName_of_writable answer found
      exact ⟨_, name, moves_of_steps (List.dropLast_append_getLast? _ ends).symm⟩
    | absent directory name =>
      obtain ⟨_, -, walk⟩ := leads_of_resolve (by decide) answer
      rcases List.eq_nil_or_concat' path.moves with noMoves | ⟨front, last, moves⟩
      · rw [noMoves] at walk
        cases walk.nil.2
      · obtain ⟨_, -, _, before⟩ := walk.front moves
        rw [moves] at walk
        obtain ⟨_, -, step⟩ := before.split walk
        cases step with
        | up rest => cases rest.nil.2
        | enter => exact ⟨front, _, moves⟩
        | missing => exact ⟨front, _, moves⟩
        | link => exact ⟨front, _, moves⟩

/-- A file can only be written where the last component of a path is a name. -/
theorem writable_parent (found : files.writable path = .ok (location, entry)) :
    ∃ above name directory, path.parent? = some above ∧
      path.moves = above.moves ++ [.enter name] ∧ files.Comes above directory ∧
      files.get? directory = some .directory ∧
      ((∃ target, files.get? (directory ++ [name]) = some (.link target)) ∨
        (location = directory ++ [name] ∧ entry = files.get? location ∧
          entry ≠ some .directory)) := by
  obtain ⟨front, last, moves⟩ := moves_of_writable found
  have isParent : path.parent?.isSome := Path.parent?_isSome (moves ▸ List.concat_ne_nil _ _)
  obtain ⟨above, parent⟩ := Option.isSome_iff_exists.1 isParent
  obtain ⟨isAbsolute, ⟨noMoves, -⟩ | ⟨step, split⟩⟩ := Path.moves_parent? parent
  · rw [moves] at noMoves
    simp at noMoves
  · obtain ⟨rfl, isLast⟩ := List.append_inj' (moves.symm.trans split) rfl
    obtain rfl := (List.cons.inj isLast).1
    obtain ⟨name, directory, same, comes, isDirectory, -, written⟩ :=
      writable_last isAbsolute moves (by simp) found
    obtain rfl := PathStep.enter.inj same
    exact ⟨above, last, directory, parent, moves, comes, isDirectory, written⟩

end ImageStaging.FileSystem
