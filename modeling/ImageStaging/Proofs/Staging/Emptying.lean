import ImageStaging.Proofs.Dependence.Steps
import ImageStaging.Proofs.Layout
import ImageStaging.Proofs.Staging.Nowhere

/-!
# Resetting a path

Whatever stands at an absolute path that ends in a name, a reset takes away nothing but what is at
and below its entry, and makes nothing but directories along the path, however it ends. If the path
neither leads through its own entry nor turns back once it has run out, a reset that succeeds leaves
an empty directory there. A reset that was cut short can be done again: with some of what is below
the path already gone, it comes to the same.
-/

namespace ImageStaging

open FileSystem (AgreeOff AsksEntry Cleared Emptied Fresh Inner LastStep RunsOut Same Site Straight
  Walks checkPath linkLimit)
open ImageStaging.Action (Ends)

/-! ## Paths that end in a name -/

/-- The last piece of the path is neither empty nor one of dots. -/
def Path.EndsInName (path : Path) : Prop :=
  ∃ piece, path.pieces.getLast? = some piece ∧
    piece ≠ [] ∧ piece ≠ [Path.dot] ∧ piece ≠ [Path.dot, Path.dot]

/-- Such a path asks for one entry in the directory that the rest of it names. -/
theorem Path.exists_join_of_endsInName {path : Path} (absolute : path.isAbsolute = true)
    (ends : path.EndsInName) : ∃ source more : Path, path = source.join more ∧
      source.isAbsolute = true ∧ source.bytes ≠ [] ∧ AsksEntry more := by
  obtain ⟨bytes⟩ := path
  obtain ⟨front, back, rfl, noSlash⟩ : ∃ front back, bytes = front ++ slash :: back ∧
      slash ∉ back := by
    have hasSlash : slash ∈ bytes.reverse := by
      rw [isAbsolute, decide_eq_true_eq] at absolute
      exact List.mem_reverse.2 (List.mem_of_mem_head? absolute)
    obtain ⟨last, before, split, noSlash⟩ := List.eq_append_cons_of_mem hasSlash
    refine ⟨before.reverse, last.reverse, ?_, by simpa using noSlash⟩
    rw [← List.reverse_reverse bytes, split]
    simp
  obtain ⟨piece, isLast, nonempty, notDot, notUp⟩ := ends
  rw [pieces_append_slash, pieces_of_noSlash noSlash, List.getLast?_concat] at isLast
  obtain rfl := Option.some.inj isLast
  have relative : (⟨back⟩ : Path).isAbsolute = false := by
    cases back with
    | nil => rfl
    | cons first rest =>
      have differ : first ≠ slash := fun same => noSlash (same ▸ List.mem_cons_self)
      simp [isAbsolute, differ]
  refine ⟨⟨front ++ [slash]⟩, ⟨back⟩, ?_, ?_, by simp, relative,
    name_or_impossible noSlash nonempty notDot notUp⟩
  · simp [join, relative, endsWithSlash]
  · cases front with
    | nil => rfl
    | cons first rest => exact absolute

namespace FileSystem

variable {files other third : FileSystem} {path above source more : Path}
  {here place location directory : Location} {name : Name}

/-! ## Directories along a path -/

/-- Some first moves of the path lead to the place. -/
def LiesAlong (files : FileSystem) (path : Path) (place : Location) : Prop :=
  ∃ ahead, ahead <+: path.moves ∧ ∃ used ≤ linkLimit,
    Walks files true used (files.startOf path) ahead (.present place)

/-- Nothing is different but for new directories along a path. -/
structure Extended (files : FileSystem) (path : Path) (other : FileSystem) : Prop where
  workingDirectory : other.workingDirectory = files.workingDirectory
  get? : ∀ place, other.get? place = files.get? place ∨
    (files.get? place = none ∧ other.get? place = some .directory ∧ other.LiesAlong path place)

theorem LiesAlong.extend (along : files.LiesAlong path place)
    (sameDirectory : other.workingDirectory = files.workingDirectory)
    (more : ∀ place entry, files.get? place = some entry → other.get? place = some entry) :
    other.LiesAlong path place := by
  obtain ⟨ahead, first, used, few, walk⟩ := along
  rw [← startOf_congr sameDirectory] at walk
  exact ⟨ahead, first, used, few, walk.extend more⟩

theorem Extended.refl (files : FileSystem) (path : Path) : Extended files path files :=
  ⟨rfl, fun _ => .inl rfl⟩

/-- A directory made where a first part of the path runs out lies along the path. -/
theorem Extended.step (extended : Extended files path other) (leading : above.Leading path)
    (out : RunsOut other above here name []) :
    Extended files path (other.place (here ++ [name]) .directory) := by
  have planted := out.planted
  have more : ∀ place entry, other.get? place = some entry →
      (other.place (here ++ [name]) .directory).get? place = some entry :=
    fun _ _ stands => planted.still_stands out.nothing stands
  refine ⟨planted.workingDirectory.trans extended.workingDirectory, fun place => ?_⟩
  by_cases new : place = here ++ [name]
  · obtain ⟨ahead, moves, used, few, walk⟩ := out.before
    rw [← startOf_congr planted.workingDirectory, leading.startOf] at walk
    have nothing : files.get? place = none := by
      rcases extended.get? place with same | ⟨nothing, -⟩
      · rw [← same, new, out.nothing]
      · exact nothing
    subst new
    refine .inr ⟨nothing, planted.at_location, ahead ++ [.enter name], ?_, used, few, ?_⟩
    · exact moves ▸ leading.moves
    · exact (walk.extend more).append (.enter planted.at_location .arrive)
  · have kept : (other.place (here ++ [name]) .directory).get? place = other.get? place := by
      rw [get?_place, if_neg fun both => new both.2]
    rw [kept]
    exact (extended.get? place).imp_right fun ⟨nothing, stands, along⟩ =>
      ⟨nothing, stands, along.extend planted.workingDirectory more⟩

/-- Nothing is different but at and below the entry that a path names, and for new directories along
the path. -/
structure Beside (files : FileSystem) (path : Path) (other : FileSystem) : Prop where
  workingDirectory : other.workingDirectory = files.workingDirectory
  get? : ∀ place, (∀ location, files.locate .entry path = .ok location → ¬ location <+: place) →
    other.get? place = files.get? place ∨
      (files.get? place = none ∧ other.get? place = some .directory ∧ other.LiesAlong path place)

theorem Extended.beside (extended : Extended files path other) : Beside files path other :=
  ⟨extended.workingDirectory, fun place _ => extended.get? place⟩

/-! ## Taking an entry away -/

/-- What is different has gone, and was at or below a location. -/
structure Reduced (root : Location) (files other : FileSystem) : Prop where
  workingDirectory : other.workingDirectory = files.workingDirectory
  get? : ∀ place, other.get? place = files.get? place ∨ (root <+: place ∧ other.get? place = none)

namespace Reduced

variable {root : Location}

theorem refl (root : Location) (files : FileSystem) : Reduced root files files :=
  ⟨rfl, fun _ => .inl rfl⟩

theorem fewer (reduced : Reduced root files other) {entry : Entry}
    (stands : other.get? place = some entry) : files.get? place = some entry := by
  rcases reduced.get? place with same | ⟨-, nothing⟩
  · exact same ▸ stands
  · cases nothing.symm.trans stands

theorem prune (reduced : Reduced root files other) (proper : root ≠ []) :
    Reduced root files (other.prune root) := by
  refine ⟨(workingDirectory_prune _ _).trans reduced.workingDirectory, fun place => ?_⟩
  rw [get?_prune proper]
  split
  · next below => exact .inr ⟨below, rfl⟩
  · exact reduced.get? place

theorem of_emptied (emptied : Emptied root files other) : Reduced root files other := by
  refine ⟨emptied.workingDirectory, fun place => ?_⟩
  by_cases inner : Inner root place
  · exact .inr ⟨inner.1, Files.emptied_inside emptied inner⟩
  · exact .inl (emptied.get? place inner)

/-- Among fewer entries the last step of a path is the same, if the path still comes to it. -/
theorem lastStep_eq {directory' : Location} {name' : Name} (reduced : Reduced root files other)
    (comes : files.lastStep path = .ok (.named directory name))
    (still : other.lastStep path = .ok (.named directory' name')) :
    directory' ++ [name'] = directory ++ [name] := by
  obtain ⟨-, used, few, before, moves, walk⟩ := lastStep_named comes
  obtain ⟨-, used', few', before', moves', walk'⟩ := lastStep_named still
  obtain ⟨rfl, isLast⟩ := List.append_inj' (moves.symm.trans moves') rfl
  rw [startOf_congr reduced.workingDirectory] at walk'
  have again := walk'.extend fun _ _ stands => reduced.fewer stands
  obtain rfl := Found.present.inj (walk.unique again)
  obtain rfl := PathStep.enter.inj (List.cons.inj isLast).1
  rfl

theorem beside (reduced : Reduced location files other)
    (located : files.locate .entry path = .ok location) (extended : Extended other path third) :
    Beside files path third := by
  refine ⟨extended.workingDirectory.trans reduced.workingDirectory, fun place outside => ?_⟩
  have kept : other.get? place = files.get? place :=
    (reduced.get? place).resolve_right fun gone => outside location located gone.1
  rw [← kept]
  exact extended.get? place

end Reduced

theorem locate_of_examineLink {entry : Entry} (seen : files.examineLink path = .ok entry) :
    ∃ location, files.locate .entry path = .ok location := by
  rw [examineLink] at seen
  cases located : files.locate .entry path with
  | error fault => rw [located] at seen; cases seen
  | ok location => exact ⟨location, rfl⟩

/-- The entry that a path comes to, links at its end not being followed, has its name in the
directory that the rest of the path leads to. -/
theorem entry_of_locate (asks : AsksEntry more) (nonempty : source.bytes ≠ [])
    (located : files.locate .entry (source.join more) = .ok location) :
    ∃ directory name, more = name.toPath ∧ location = directory ++ [name] ∧
      files.locate .target source = .ok directory ∧ files.get? directory = some .directory ∧
      checkPath (source.join more) = .ok () := by
  by_cases there : ∃ directory, files.locate .target source = .ok directory ∧
      files.get? directory = some .directory
  · obtain ⟨directory, found, isDirectory⟩ := there
    have leads := leads_of_locate found
    obtain ⟨relative, ⟨name, rfl⟩ | impossible⟩ := id asks
    · rw [locate_entry_join leads isDirectory] at located
      cases checked : checkPath (source.join name.toPath) with
      | error fault => rw [checked] at located; cases located
      | ok =>
        simp only [checked, Except.bind] at located
        split at located
        · obtain rfl := Except.ok.inj located
          exact ⟨directory, name, rfl, rfl, found, isDirectory, rfl⟩
        · cases located
    · obtain ⟨fault, -, failed⟩ :=
        locate_entry_impossible leads isDirectory relative asks.bytes_ne_nil impossible
      cases failed.symm.trans located
  · have nowhere : ∀ directory, files.locate .target source = .ok directory →
        files.get? directory ≠ some .directory :=
      fun directory found isDirectory => there ⟨directory, found, isDirectory⟩
    obtain ⟨fault, failed⟩ := locate_entry_nowhere asks nonempty nowhere
    cases failed.symm.trans located

/-! ## Paths that do not lead through their own entry -/

/-- The way to the entry that a path names does not lead through that entry. -/
def Direct (files : FileSystem) (path : Path) : Prop :=
  ∀ above, path.parent? = some above → ∀ location, files.locate .entry path = .ok location →
    files.Avoids location above

/-- The path names a directory, be it by itself and not by a link, with nothing in it. -/
def EmptyAt (files : FileSystem) (path : Path) : Prop :=
  ∃ location, files.locate .entry path = .ok location ∧ files.get? location = some .directory ∧
    ∀ name, files.get? (location ++ [name]) = none

/-- Some of what was below the entry that a path names may be gone. -/
structure Thinned (files : FileSystem) (path : Path) (less : FileSystem) : Prop where
  workingDirectory : less.workingDirectory = files.workingDirectory
  get? : ∀ place, less.get? place = files.get? place ∨ (less.get? place = none ∧
    ∃ location, files.locate .entry path = .ok location ∧ Inner location place)

theorem Fresh.emptyAt (fresh : Fresh files source directory name) :
    files.EmptyAt (source.join name.toPath) := by
  refine ⟨directory ++ [name], ?_, fresh.empty.at_root, fun child => ?_⟩
  · rw [fresh.toSite.locate_entry fresh.checked, fresh.empty.at_root]
    rfl
  · exact fresh.empty.inside (List.cons_ne_nil child [])

/-- Where nothing stands, no path leads through. -/
theorem avoids_of_nothing (leads : files.Leads source (.present directory))
    (isDirectory : files.get? directory = some .directory)
    (nothing : files.get? location = none) : files.Avoids location source := by
  obtain ⟨used, few, walk⟩ := leads
  have strictly := walk.strict_of_directory isDirectory
  intro seen member below
  have gone := get?_below_of_nothing nothing below
  rw [trailOf_eq] at member
  rcases List.mem_cons.1 member with rfl | later
  · cases gone.symm.trans (walk.climb_isDirectory isDirectory)
  · rcases strictly.passes few seen later with stands | ⟨target, stands⟩
    · cases gone.symm.trans stands
    · cases gone.symm.trans stands

theorem Direct.site (direct : files.Direct (source.join name.toPath))
    (found : files.locate .target source = .ok directory)
    (isDirectory : files.get? directory = some .directory)
    (checked : checkPath (source.join name.toPath) = .ok ()) :
    Site files source directory name := by
  have leads := leads_of_locate found
  refine ⟨found, isDirectory, ?_⟩
  cases stands : files.get? (directory ++ [name]) with
  | none => exact avoids_of_nothing leads isDirectory stands
  | some entry =>
    have located : files.locate .entry (source.join name.toPath) = .ok (directory ++ [name]) := by
      rw [locate_entry_join leads isDirectory, checked, stands]
      rfl
    have moves : (source.join name.toPath).moves = source.moves ++ [.enter name] := by
      rw [Path.moves_join name.isAbsolute_toPath, name.moves_toPath]
    obtain ⟨above, isParent⟩ :=
      Option.isSome_iff_exists.1 (Path.parent?_isSome (moves ▸ List.concat_ne_nil _ _))
    have avoids := direct above isParent _ located
    obtain ⟨isAbsolute, ⟨noMoves, -⟩ | ⟨last, split⟩⟩ := Path.moves_parent? isParent
    · rw [moves] at noMoves
      simp at noMoves
    · -- The parent and what the name is joined to may be spelled apart, but they move alike.
      have sameMoves : above.moves = source.moves :=
        List.append_inj_left' (split.symm.trans moves) rfl
      have sameStart : files.startOf above = files.startOf source := by
        rw [startOf, startOf, isAbsolute, Path.isAbsolute_join name.isAbsolute_toPath]
      rwa [Avoids, trailOf_eq, sameStart, sameMoves, ← trailOf_eq] at avoids

theorem Thinned.same (thinned : Thinned files path other) {fault : FileFault}
    (failed : files.locate .entry path = .error fault) : Same files other := by
  refine ⟨thinned.workingDirectory, fun place => ?_⟩
  refine (thinned.get? place).resolve_right ?_
  rintro ⟨-, location, located, -⟩
  cases failed.symm.trans located

theorem Thinned.agreeOff (thinned : Thinned files path other)
    (located : files.locate .entry path = .ok location) : AgreeOff location files other := by
  refine ⟨thinned.workingDirectory, fun place outside => ?_⟩
  refine (thinned.get? place).resolve_right ?_
  rintro ⟨-, location', located', inner⟩
  obtain rfl := Except.ok.inj (located.symm.trans located')
  exact outside inner.1

end FileSystem

open FileSystem (Beside Direct EmptyAt Extended Reduced Thinned)

section Resetting

variable {world : World} {path : Path} {location directory : Location} {name : Name}

/-- Making the directories of a path makes nothing else. -/
theorem Files.makeDirectories_extends (path : Path) (world : World) :
    (Files.makeDirectories path).Ends world
      (fun _ after => Extended world.files path after.files)
      (fun _ after => Extended world.files path after.files) := by
  refine @Files.makeDirectories_keeps world path
    (fun now => Extended world.files path now.files) ?_ (.refl _ path)
  intro now above here name extended leading out
  exact extended.step leading out

/-- Emptying and removing a directory takes away nothing else, however far it comes. -/
theorem Files.removeTree_reduces
    (comes : world.files.lastStep path = .ok (.named directory name))
    (located : world.files.locate .entry path = .ok (directory ++ [name])) :
    (Files.removeTree path).Ends world
      (fun _ after => Reduced (directory ++ [name]) world.files after.files)
      (fun _ after => Reduced (directory ++ [name]) world.files after.files) := by
  unfold Files.removeTree
  simp only [Action.ends_bind, Action.ends_look, Action.ends_get, located]
  refine ⟨?_, fun _ impossible => by cases impossible⟩
  rintro _ ⟨⟩
  refine (Files.removeChildren_ends _).mono ?_ fun _ _ impossible => impossible.elim
  intro _ middle emptied
  have reduced := Reduced.of_emptied emptied
  simp only [Action.ends_attempt, Action.ends_edit]
  refine ⟨fun step removes => ?_, fun fault _ => ?_⟩
  · obtain ⟨directory', name', still, -, -, rfl⟩ :=
      FileSystem.lastStep_of_removeDirectory removes
    have same := reduced.lastStep_eq comes still
    simp only [FileSystem.apply, same]
    exact reduced.prune (by simp)
  · cases fault <;> exact reduced

theorem Files.removeFile_reduces
    (comes : world.files.lastStep path = .ok (.named directory name)) :
    (Action.edit (FileSystem.removeFile path)).Ends world
      (fun _ after => Reduced (directory ++ [name]) world.files after.files)
      (fun _ after => Reduced (directory ++ [name]) world.files after.files) := by
  refine Action.ends_edit.2 ⟨fun step removes => ?_, fun _ _ => .refl _ _⟩
  obtain ⟨directory', name', still, -, -, rfl⟩ := FileSystem.lastStep_of_removeFile removes
  obtain ⟨rfl, rfl⟩ := LastStep.named.inj (Except.ok.inj (comes.symm.trans still))
  exact (Reduced.refl _ _).prune (by simp)

/-- However a reset ends, it has taken away nothing but what was at and below the entry, and has
made nothing but directories along the path. -/
theorem Staging.reset_beside (absolute : path.isAbsolute = true) (endsInName : path.EndsInName) :
    (Staging.reset path).Ends world (fun _ after => Beside world.files path after.files)
      (fun _ after => Beside world.files path after.files) := by
  unfold Staging.reset
  simp only [Action.ends_bind, Action.ends_get]
  cases seen : world.files.examineLink path with
  | error fault =>
    cases fault with
    | notFound =>
      simp only [Action.ends_blaming]
      exact (Files.makeDirectories_extends _ _).mono (fun _ _ extended => extended.beside)
        fun _ _ extended => extended.beside
    | _ => exact (Extended.refl _ _).beside
  | ok entry =>
    obtain ⟨location, located⟩ := FileSystem.locate_of_examineLink seen
    obtain ⟨source, more, rfl, sourceAbsolute, nonempty, asks⟩ :=
      Path.exists_join_of_endsInName absolute endsInName
    obtain ⟨directory, name, rfl, rfl, found, isDirectory, checked⟩ :=
      FileSystem.entry_of_locate asks nonempty located
    have comes : world.files.lastStep (source.join name.toPath) = .ok (.named directory name) := by
      rw [FileSystem.lastStep_join (FileSystem.leads_of_locate found) isDirectory, checked]
      rfl
    have removal : (if entry = .directory then Files.removeTree (source.join name.toPath)
        else Action.edit (FileSystem.removeFile (source.join name.toPath))).Ends world
          (fun _ after => Reduced (directory ++ [name]) world.files after.files)
          (fun _ after => Reduced (directory ++ [name]) world.files after.files) := by
      split
      · exact Files.removeTree_reduces comes located
      · exact Files.removeFile_reduces comes
    simp only [Action.ends_bind, Action.ends_blaming, Action.ends_note]
    refine removal.mono ?_ fun _ _ reduced => reduced.beside located (.refl _ _)
    intro _ middle reduced
    exact (Files.makeDirectories_extends _ _).mono
      (fun _ _ extended => reduced.beside located extended)
      fun _ _ extended => reduced.beside located extended

/-- A reset that succeeds leaves an empty directory, unless the path leads through its own entry or
turns back once it has run out. -/
theorem Staging.reset_empties (absolute : path.isAbsolute = true) (endsInName : path.EndsInName)
    (direct : world.files.Direct path) (straight : Straight world.files path) :
    (Staging.reset path).Ends world (fun _ after => after.files.EmptyAt path)
      (fun _ _ => True) := by
  obtain ⟨source, more, rfl, sourceAbsolute, nonempty, asks⟩ :=
    Path.exists_join_of_endsInName absolute endsInName
  by_cases there : ∃ directory, world.files.locate .target source = .ok directory ∧
      world.files.get? directory = some .directory
  · obtain ⟨directory, found, isDirectory⟩ := there
    have unusable : ∀ fault, fault ≠ .notFound →
        world.files.locate .entry (source.join more) = .error fault →
        (Staging.reset (source.join more)).Ends world
          (fun _ after => after.files.EmptyAt (source.join more)) (fun _ _ => True) :=
      fun _ notMissing failed => (Staging.reset_unusable_ends notMissing failed).mono
        (fun _ _ impossible => impossible.elim) fun _ _ _ => trivial
    obtain ⟨relative, ⟨name, rfl⟩ | impossible⟩ := id asks
    · cases checked : checkPath (source.join name.toPath) with
      | error fault =>
        refine unusable fault ?_ ?_
        · rintro rfl
          exact FileSystem.checkPath_ne_notFound (Path.bytes_join_ne_nil asks.bytes_ne_nil) checked
        · rw [FileSystem.locate, FileSystem.resolve, checked]
          rfl
      | ok =>
        have site := direct.site found isDirectory checked
        refine (Staging.reset_ends site).mono ?_ fun _ _ _ => trivial
        rintro _ after ⟨-, cleared⟩
        exact (site.fresh checked cleared).emptyAt
    · obtain ⟨fault, notMissing, failed⟩ := FileSystem.locate_entry_impossible
        (FileSystem.leads_of_locate found) isDirectory relative asks.bytes_ne_nil impossible
      exact unusable fault notMissing failed
  · have nowhere : ∀ directory, world.files.locate .target source = .ok directory →
        world.files.get? directory ≠ some .directory :=
      fun directory found isDirectory => there ⟨directory, found, isDirectory⟩
    have sourceStraight : Straight world.files source := by
      intro here name rest out
      have longer := straight here name _
        (out.extend (Path.isAbsolute_join asks.1) (Path.moves_join asks.1))
      exact fun turns => longer (List.mem_append_left _ turns)
    refine (Staging.reset_nowhere_ends asks nonempty nowhere sourceStraight).mono ?_
      fun _ _ _ => trivial
    rintro _ after ⟨directory, name, founded⟩
    rw [founded.named]
    exact founded.fresh.emptyAt

/-- A reset does not depend on how much is left below the entry that it empties. -/
theorem Staging.reset_thinned (absolute : path.isAbsolute = true) (endsInName : path.EndsInName)
    (direct : world.files.Direct path) {other : World}
    (thinned : Thinned world.files path other.files) :
    ∃ result after after', (Staging.reset path).run.run world = (result, after) ∧
      (Staging.reset path).run.run other = (result, after') ∧ after.files.Same after'.files := by
  cases located : world.files.locate .entry path with
  | error fault =>
    obtain ⟨result, after, after', run, run', same, -⟩ :=
      Staging.onFiles_reset path world other (thinned.same located)
    exact ⟨result, after, after', run, run', same⟩
  | ok location =>
    have agree := thinned.agreeOff located
    obtain ⟨source, more, rfl, sourceAbsolute, nonempty, asks⟩ :=
      Path.exists_join_of_endsInName absolute endsInName
    obtain ⟨directory, name, rfl, rfl, found, isDirectory, checked⟩ :=
      FileSystem.entry_of_locate asks nonempty located
    have site := direct.site found isDirectory checked
    have succeeds : ∀ now : World, Site now.files source directory name →
        ∃ after, (Staging.reset (source.join name.toPath)).run.run now = (.ok (), after) ∧
          Cleared (directory ++ [name]) now.files after.files := by
      intro now siteNow
      rcases (Staging.reset_ends siteNow).ending with
        ⟨⟨⟩, after, run, -, cleared⟩ | ⟨_, _, -, -, cause, failed, -⟩
      · exact ⟨after, run, cleared⟩
      · cases checked.symm.trans failed
    obtain ⟨after, run, cleared⟩ := succeeds world site
    obtain ⟨after', run', cleared'⟩ := succeeds other (site.agree agree)
    exact ⟨.ok (), after, after', run, run',
      (site.fresh checked cleared).same (cleared.agreeOff.symm.trans agree) cleared'⟩

/-- A reset of an absolute path that ends in a name changes nothing beside the entry of the path,
except that it makes missing directories along the path, however it ends. If the path does not lead
through its own entry, it can be done again with some of what is below already gone, and if it does
not turn back either once it has run out, success means that an empty directory is left. -/
theorem Staging.reset_leaves_empty (absolute : path.isAbsolute = true)
    (endsInName : path.EndsInName) (world : World) :
    (Staging.reset path).Ends world
      (fun _ after => Beside world.files path after.files ∧
        (world.files.Direct path → Straight world.files path → after.files.EmptyAt path))
      (fun _ after => Beside world.files path after.files) ∧
    (world.files.Direct path → ∀ other : World, Thinned world.files path other.files →
      ∃ result after after', (Staging.reset path).run.run world = (result, after) ∧
        (Staging.reset path).run.run other = (result, after') ∧
        after.files.Same after'.files) := by
  constructor
  · have besides : (Staging.reset path).Ends world _ _ :=
      Staging.reset_beside absolute endsInName
    rcases besides.ending with ⟨⟨⟩, after, run, beside⟩ | ⟨fault, after, run, beside⟩
    · rw [Ends, run]
      exact ⟨beside, fun direct straight =>
        (Staging.reset_empties absolute endsInName direct straight).of_ok run⟩
    · rw [Ends, run]
      exact beside
  · intro direct other thinned
    exact Staging.reset_thinned absolute endsInName direct thinned

/-- A context with a directory that a build left in it. -/
def Staging.staleFiles : FileSystem where
  entries := [
    ([Layout.nameOf "context"], .directory),
    ([Layout.nameOf "context", Layout.nameOf "old"], .directory),
    ([Layout.nameOf "context", Layout.nameOf "old", Layout.nameOf "file"], .file [1] false)]
  distinct := by decide
  rooted := by
    simp only [FileSystem.Rooted, FileSystem.find]
    decide

/-- What is left of it if removing it was cut short. -/
def Staging.cutShortFiles : FileSystem :=
  staleFiles.prune [Layout.nameOf "context", Layout.nameOf "old", Layout.nameOf "file"]

theorem Staging.stale_located : staleFiles.locate .entry (Path.ofString "/context") =
    .ok [Layout.nameOf "context"] := by decide

theorem Staging.stale_thinned :
    Thinned staleFiles (Path.ofString "/context") cutShortFiles := by
  refine ⟨FileSystem.workingDirectory_prune _ _, fun place => ?_⟩
  rw [cutShortFiles, FileSystem.get?_prune (by simp)]
  split
  · next below =>
    have inner : Inner [Layout.nameOf "context"] place := FileSystem.inner_of_below
      (List.cons_ne_nil (Layout.nameOf "old") [Layout.nameOf "file"]) below
    exact .inr ⟨rfl, _, stale_located, inner⟩
  · exact .inl rfl

theorem Staging.stale_direct : staleFiles.Direct (Path.ofString "/context") := by
  intro above isParent location found
  have parent : (Path.ofString "/context").parent? = some (Path.ofString "/") := by decide
  obtain rfl := Option.some.inj (parent.symm.trans isParent)
  obtain rfl := Except.ok.inj (stale_located.symm.trans found)
  decide

/-- The reset of a stale context that was cut short can be done again. -/
theorem Staging.reset_leaves_empty_stale : ∃ after after',
    (reset (Path.ofString "/context")).run.run { files := staleFiles } = (.ok (), after) ∧
      (reset (Path.ofString "/context")).run.run { files := cutShortFiles } = (.ok (), after') ∧
      after.files.EmptyAt (Path.ofString "/context") ∧ after.files.Same after'.files := by
  have direct := stale_direct
  have thinned := stale_thinned
  have straight : Straight staleFiles (Path.ofString "/context") :=
    @FileSystem.straight_of_locate _ _ [Layout.nameOf "context"] (by decide)
  have succeeds : ((reset (Path.ofString "/context")).run.run
      { files := staleFiles }).1.toOption = some () := by decide +kernel
  have endsInName : (Path.ofString "/context").EndsInName :=
    ⟨(Path.ofString "context").bytes, by decide, by decide, by decide, by decide⟩
  -- What the two hold does not matter from here on.
  generalize cutShortFiles = less at thinned ⊢
  generalize staleFiles = files at direct thinned straight succeeds ⊢
  obtain ⟨empties, again⟩ :=
    @reset_leaves_empty (Path.ofString "/context") (by decide) endsInName { files }
  obtain ⟨result, after, after', run, run', same⟩ := again direct { files := less } thinned
  rw [run] at succeeds
  cases result with
  | error fault => cases succeeds
  | ok => exact ⟨after, after', run, run', (empties.of_ok run).2 direct straight, same⟩

end Resetting

end ImageStaging
