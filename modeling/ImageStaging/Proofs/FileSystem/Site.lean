import ImageStaging.Proofs.FileSystem.Removal
import ImageStaging.Proofs.FileSystem.Same
import ImageStaging.Proofs.FileSystem.Tree

/-!
# An entry of a directory that a path leads to

A site is the place of an entry, given by the path of its directory and its name, when the way to
the directory does not lead through the entry. Whatever happens at the site, the path still leads
there; so what stands at the site can be taken away and a directory made in its place.
-/

namespace ImageStaging.FileSystem

structure Site (files : FileSystem) (path : Path) (directory : Location) (name : Name) :
    Prop where
  found : files.locate .target path = .ok directory
  isDirectory : files.get? directory = some .directory
  avoids : files.Avoids (directory ++ [name]) path

/-- What a name joined to a path calls can be taken away, if it is no directory. -/
theorem removeFile_join {files : FileSystem} {path : Path} {directory : Location} {name : Name}
    {entry : Entry} (leads : files.Leads path (.present directory))
    (isDirectory : files.get? directory = some .directory)
    (checked : checkPath (path.join name.toPath) = .ok ())
    (stands : files.get? (directory ++ [name]) = some entry) (notDirectory : entry ≠ .directory) :
    removeFile (path.join name.toPath) files = .ok (.remove (directory ++ [name])) := by
  have noSlash : (path.join name.toPath).endsWithSlash = false := by
    rw [Path.endsWithSlash_join (Name.isAbsolute_toPath name) (Name.bytes_toPath_ne_nil name),
      Name.endsWithSlash_toPath]
  rw [removeFile, lastStep_join leads isDirectory, checked]
  simp only [bind, Except.bind, Except.map, stands, noSlash]
  cases entry with
  | directory => exact absurd rfl notDirectory
  | file => rfl
  | link => rfl
  | fullDevice => rfl

/-- A directory with nothing in it has taken the place of what stood at a location. -/
structure Cleared (root : Location) (files other : FileSystem) : Prop where
  workingDirectory : other.workingDirectory = files.workingDirectory
  get? : ∀ place, other.get? place =
    if place = root then some .directory
    else if root <+: place then none
    else files.get? place

namespace Site

variable {files other start : FileSystem} {path : Path} {directory : Location} {name : Name}

theorem child_not_above (name : Name) : ¬ directory ++ [name] <+: directory := fun above =>
  absurd (eq_nil_of_above above) (List.cons_ne_nil _ _)

/-- A change at and below the site leaves it a site. -/
theorem agree (site : Site files path directory name)
    (agree : AgreeOff (directory ++ [name]) files other) : Site other path directory name := by
  refine ⟨?_, ?_, agree.still_avoids site.avoids⟩
  · rw [agree.locate_eq site.avoids, site.found]
  · rw [agree.get? directory (child_not_above name), site.isDirectory]

variable (site : Site files path directory name)
  (checked : checkPath (path.join name.toPath) = .ok ())
include site checked

theorem lastStep :
    files.lastStep (path.join name.toPath) = .ok (.named directory name) := by
  rw [lastStep_join (leads_of_locate site.found) site.isDirectory, checked]
  rfl

theorem locate_entry : files.locate .entry (path.join name.toPath) =
    if (files.get? (directory ++ [name])).isSome then .ok (directory ++ [name])
    else .error .notFound := by
  rw [locate_entry_join (leads_of_locate site.found) site.isDirectory, checked]
  rfl

theorem examineLink_of_some {entry : Entry}
    (stands : files.get? (directory ++ [name]) = some entry) :
    files.examineLink (path.join name.toPath) = .ok entry := by
  rw [examineLink, site.locate_entry checked, stands]
  simp [bind, Except.bind, pure, Except.pure, stands]

theorem examineLink_of_none (nothing : files.get? (directory ++ [name]) = none) :
    files.examineLink (path.join name.toPath) = .error .notFound := by
  rw [examineLink, site.locate_entry checked, nothing]
  rfl

theorem makeDirectory (nothing : files.get? (directory ++ [name]) = none) :
    FileSystem.makeDirectory (path.join name.toPath) files =
      .ok (.place (directory ++ [name]) .directory) := by
  rw [FileSystem.makeDirectory, site.lastStep checked]
  simp [bind, Except.bind, pure, Except.pure, nothing]

theorem removeFile {entry : Entry} (stands : files.get? (directory ++ [name]) = some entry)
    (notDirectory : entry ≠ .directory) :
    FileSystem.removeFile (path.join name.toPath) files = .ok (.remove (directory ++ [name])) :=
  removeFile_join (leads_of_locate site.found) site.isDirectory checked stands notDirectory

theorem removeDirectory (isDirectory : files.get? (directory ++ [name]) = some .directory)
    (empty : ∀ child, files.get? (directory ++ [name] ++ [child]) = none) :
    FileSystem.removeDirectory (path.join name.toPath) files =
      .ok (.remove (directory ++ [name])) := by
  have noChildren : files.children (directory ++ [name]) = [] := by
    refine List.eq_nil_iff_forall_not_mem.2 fun child member => ?_
    have stands := mem_children.1 member
    rw [empty child] at stands
    cases stands
  rw [FileSystem.removeDirectory, site.lastStep checked]
  simp [bind, Except.bind, pure, Except.pure, isDirectory, noChildren]

end Site

namespace Site

variable {start files : FileSystem} {path : Path} {directory : Location} {name : Name}

/-- A directory made at a site can be worked in. -/
theorem confined (site : Site start path directory name)
    (checked : checkPath (path.join name.toPath) = .ok ())
    (agree : AgreeOff (directory ++ [name]) start files)
    (isDirectory : files.get? (directory ++ [name]) = some .directory)
    (plain : files.Plain (directory ++ [name])) :
    Confined start (path.join name.toPath) (directory ++ [name]) files := by
  have siteThen := site.agree agree
  obtain ⟨used, few, walk⟩ := leads_of_locate siteThen.found
  have strictly := walk.strict_of_directory siteThen.isDirectory
  have startOf : files.startOf (path.join name.toPath) = files.startOf path :=
    Path.startOf_join files (Name.isAbsolute_toPath name)
  have moves : (path.join name.toPath).moves = path.moves ++ [.enter name] := by
    rw [Path.moves_join (Name.isAbsolute_toPath name), Name.moves_toPath]
  refine ⟨agree, isDirectory, plain, ?_, ?_⟩
  · refine Leads.locate_directory ⟨used, few, ?_⟩ isDirectory checked
    rw [startOf, moves]
    exact (strictly.append (.enter isDirectory .arrive)).lax
  · intro location member inner
    obtain ⟨left, trail⟩ :=
      @Leads.trailOf_append _ _ _ _ [name] (leads_of_locate siteThen.found) siteThen.isDirectory
        startOf moves
    have member : location ∈ files.trailOf (path.join name.toPath) := List.mem_cons_of_mem _ member
    rw [trail, List.map_singleton, trail_enter_directory isDirectory, trail_nil] at member
    rcases List.mem_append.1 member with earlier | last
    · exact absurd inner.1 (siteThen.avoids location earlier)
    · exact absurd (List.mem_singleton.1 last) inner.2

end Site

namespace Cleared

variable {root : Location} {files other : FileSystem}

theorem agreeOff (cleared : Cleared root files other) : AgreeOff root files other := by
  refine ⟨cleared.workingDirectory, fun location outside => ?_⟩
  have differ : location ≠ root := by
    rintro rfl
    exact outside List.prefix_rfl
  rw [cleared.get?, if_neg differ, if_neg outside]

theorem at_root (cleared : Cleared root files other) : other.get? root = some .directory := by
  rw [cleared.get?, if_pos rfl]

theorem inside (cleared : Cleared root files other) {names : List Name} (proper : names ≠ []) :
    other.get? (root ++ names) = none := by
  rw [cleared.get?, if_neg (by simpa using proper), if_pos (List.prefix_append _ _)]

theorem plain (cleared : Cleared root files other) : other.Plain root := by
  intro names entry stands
  by_cases proper : names = []
  · rw [proper, List.append_nil, cleared.at_root] at stands
    exact .inl (Option.some.inj stands).symm
  · rw [cleared.inside proper] at stands
    cases stands

/-- What is empty can be taken to have been emptied just now. -/
theorem again (cleared : Cleared root files other) : Cleared root other other := by
  refine ⟨rfl, fun place => ?_⟩
  split
  · next same => rw [same, cleared.at_root]
  · split
    · next differ below => rw [cleared.get?, if_neg differ, if_pos below]
    · rfl

end Cleared

/-- An empty directory stands at a site, and its path can be looked up. -/
structure Fresh (files : FileSystem) (path : Path) (directory : Location) (name : Name) : Prop
    extends Site files path directory name where
  checked : checkPath (path.join name.toPath) = .ok ()
  empty : Cleared (directory ++ [name]) files files

section Fresh

variable {files other : FileSystem} {path : Path} {directory : Location} {name : Name}

theorem Site.fresh (site : Site files path directory name)
    (checked : checkPath (path.join name.toPath) = .ok ())
    (cleared : Cleared (directory ++ [name]) files other) : Fresh other path directory name :=
  ⟨site.agree cleared.agreeOff, checked, cleared.again⟩

theorem Fresh.confined (fresh : Fresh files path directory name) :
    Confined files (path.join name.toPath) (directory ++ [name]) files :=
  fresh.toSite.confined fresh.checked (.refl _ _) fresh.empty.at_root fresh.empty.plain

/-- Emptied once more, the directory is as it was, whatever has been done in it. -/
theorem Fresh.same {third : FileSystem} (fresh : Fresh files path directory name)
    (agree : AgreeOff (directory ++ [name]) files other)
    (cleared : Cleared (directory ++ [name]) other third) : Same files third := by
  refine ⟨cleared.workingDirectory.trans agree.workingDirectory, fun place => ?_⟩
  rw [cleared.get?]
  by_cases inside : directory ++ [name] <+: place
  · rw [fresh.empty.get?, if_pos inside, if_pos inside]
  · rw [if_neg inside, agree.get? place inside]
    split
    · next atRoot => rw [atRoot, fresh.empty.at_root]
    · rfl

end Fresh

/-- A directory made where nothing is left. -/
theorem Pruned.cleared {root : Location} {files other : FileSystem}
    (pruned : Pruned root files other) (proper : root ≠ [])
    (parent : files.get? root.dropLast = some .directory) :
    Cleared root files (other.place root .directory) := by
  have shorter : ¬ root <+: root.dropLast := fun below => by
    have := below.length_le
    have := List.length_pos_iff.2 proper
    rw [List.length_dropLast] at *
    omega
  have accepts : other.Accepts root :=
    ⟨proper, by rw [pruned.get?, if_neg shorter, parent], by simp [pruned.at_root]⟩
  refine ⟨(workingDirectory_place _ _ _).trans pruned.workingDirectory, fun place => ?_⟩
  rw [get?_place, pruned.get?]
  by_cases same : place = root
  · rw [if_pos ⟨accepts, same⟩, if_pos same]
  · rw [if_neg fun both => same both.2, if_neg same]

end ImageStaging.FileSystem
