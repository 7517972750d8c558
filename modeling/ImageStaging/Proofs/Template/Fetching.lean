import ImageStaging.Proofs.Template.Reference
import ImageStaging.Proofs.Template.Resolution
import ImageStaging.Proofs.TreeCopy

/-!
# Fetching the files of a template

A reference is copied from the first library that holds its path, or it is refused for one of four
reasons, and either way only the context is worked in. When all references of a template have been
fetched, everything that any of them brings stands in the context at once: a later reference can lay
a tree over what an earlier one brought, but where the two meet they bring the same.
-/

namespace ImageStaging.Template

open FileSystem (Confined Overlaid PartLaid)
open ImageStaging.Action (Ends)

variable {start : FileSystem} {context : Path} {root : Location} {libraries : List Path}
  {world : World}

theorem findLibrary?_ends (path : Path) (libraries : List Path) :
    (findLibrary? path libraries).Ends world
      (fun found after => after = world ∧ SearchEnds world.files libraries path (.ok found))
      (fun fault after =>
        after = world ∧ SearchEnds world.files libraries path (.error fault)) := by
  induction libraries with
  | nil => exact ⟨rfl, .missing fun _ member => (List.not_mem_nil member).elim⟩
  | cons candidate rest ih =>
    simp only [findLibrary?, Action.ends_bind, Action.ends_blaming, Action.ends_look]
    constructor
    · intro present found
      cases present with
      | true => exact ⟨rfl, .holds ⟨[], rest, rfl, by simp, found⟩⟩
      | false =>
        refine ih.mono ?_ ?_
        · rintro _ _ ⟨same, ends⟩
          exact ⟨same, ends.cons found⟩
        · rintro _ _ ⟨same, ends⟩
          exact ⟨same, ends.cons found⟩
    · intro fault fails
      exact ⟨trivial, .stops (List.nil_append _).symm (by simp) fails⟩

/-- The trees of the libraries keep out of a region. -/
def LibrariesApart (start : FileSystem) (root : Location) (libraries : List Path) : Prop :=
  ∀ library ∈ libraries, start.Apart root library

theorem apart_join {library path : Path} {front : List Name} {files : FileSystem}
    (apart : files.Apart root library) (relative : path.isAbsolute = false)
    (moves : path.moves = front.map .enter) : files.Apart root (library.join path) := by
  intro rest
  refine (apart (front ++ rest)).of_same ?_ ?_
  · rw [Path.isAbsolute_below, Path.isAbsolute_below, Path.isAbsolute_join relative]
  · rw [Path.moves_below, Path.moves_below, Path.moves_join relative, moves, List.map_append,
      List.append_assoc]

/-- Looking for a contained path in such a library, the region is not looked at. The path may come
to an impossible step, and then it is not looked up any further. -/
theorem avoids_join {library path : Path} {text : Text} {files : FileSystem}
    (apart : files.Apart root library) (contained : containedPath? text = some path) :
    files.Avoids root (library.join path) := by
  obtain ⟨relative, noUp, _⟩ := contained_moves contained
  obtain ⟨names, rest, moves, ends⟩ := names_before noUp
  have sameTrail : files.trailOf (library.join path) = files.trailOf (library.below names) := by
    rw [FileSystem.trailOf_eq, FileSystem.trailOf_eq, Path.startOf_below,
      Path.startOf_join files relative, Path.moves_join relative, Path.moves_below, moves]
    rcases ends with rfl | ⟨more, rfl⟩
    · rw [List.append_nil]
    · rw [← List.append_assoc, FileSystem.trail_impossible, FileSystem.climb_append fun _ => rfl]
  rw [FileSystem.Avoids, sameTrail]
  exact apart names

/-- A path is in a library in the course of the work if it was before. -/
theorem LibrariesApart.exists?_eq {path library : Path} {text : Text}
    (apart : LibrariesApart start root libraries)
    (confined : Confined start context root world.files)
    (contained : containedPath? text = some path) (member : library ∈ libraries) :
    world.files.exists? (library.join path) = start.exists? (library.join path) :=
  confined.agree.exists?_eq (avoids_join (apart library member) contained)

theorem FirstHolder.at_start {path library : Path} {text : Text}
    (holder : FirstHolder world.files libraries path library)
    (confined : Confined start context root world.files)
    (apart : LibrariesApart start root libraries) (contained : containedPath? text = some path) :
    FirstHolder start libraries path library := by
  obtain ⟨before, later, split, earlier, holds⟩ := holder
  refine ⟨before, later, split, fun candidate member => ?_, ?_⟩
  · rw [← apart.exists?_eq confined contained (by simp [split, member]), earlier candidate member]
  · rw [← apart.exists?_eq confined contained (by simp [split]), holds]

/-- The path of a reference leads to the place of the context that its names spell. -/
theorem descends_join {inner : Text} {path : Path} {front : List Name}
    (contained : containedPath? (sharedPath inner) = some path)
    (moves : path.moves = front.map .enter) : Path.Descends context front (context.join path) := by
  have descends := (Path.Descends.refl context).join (contained_moves contained).1 moves
  rwa [List.nil_append] at descends

theorem LibrariesApart.join {files : FileSystem} {inner : Text} {path library : Path}
    {front : List Name} (apart : LibrariesApart start root libraries)
    (contained : containedPath? (sharedPath inner) = some path)
    (holder : FirstHolder files libraries path library)
    (moves : path.moves = front.map .enter) : start.Apart root (library.join path) := by
  refine apart_join (apart library ?_) (contained_moves contained).1 moves
  obtain ⟨before, later, rfl, _⟩ := holder
  simp

/-- A copy from the library that holds the path of a reference. -/
theorem copy_held_ends {files : FileSystem} {inner : Text} {path library : Path}
    (contained : containedPath? (sharedPath inner) = some path)
    (holder : FirstHolder files libraries path library)
    (confined : Confined start context root world.files) :
    ∃ names : List Name, path.moves = names.map .enter ∧
      (TreeCopy.copy (library.join path) (context.join path)).Ends world
        (fun _ after => Confined start context root after.files ∧
          (LibrariesApart start root libraries →
            Overlaid (start.tree (library.join path)) (root ++ names) world.files after.files))
        (fun _ after => Confined start context root after.files ∧
          (LibrariesApart start root libraries → PartLaid (start.tree (library.join path))
            (root ++ names) world.files after.files)) := by
  obtain ⟨names, proper, moves⟩ := names_of_holder contained holder.holds
  refine ⟨names, moves, (TreeCopy.copy_ends (bytes_join_ne_nil contained library)
    (descends_join contained moves) proper confined).mono ?_ ?_⟩
  · rintro _ after ⟨worked, laid⟩
    exact ⟨worked.confined, fun apart => laid (apart.join contained holder moves)⟩
  · rintro _ after ⟨worked, part⟩
    exact ⟨worked.confined, fun apart => part (apart.join contained holder moves)⟩

/-! ## One reference -/

/-- Why a reference cannot be obtained in a world, the search being made in some files, and the
world that is left then: its path is not accepted, no library has it, the search for it comes to a
library that cannot be asked, or the copy fails. -/
inductive Refuses (files : FileSystem) (libraries : List Path) (context : Path) (inner : Text)
    (before : World) : Failure → World → Prop
  | rejected (outside : containedPath? (Text.trim inner) = none) :
    Refuses files libraries context inner before
      (.fileReference (fileReference inner) .outsideLibrary) before
  | unheld {path : Path} (contained : containedPath? (Text.trim inner) = some path)
    (nowhere : ∀ library ∈ libraries, files.exists? (library.join path) = .ok false) :
    Refuses files libraries context inner before (.fileReference (fileReference inner)
      (if libraries.isEmpty then .noLibraries else .inNoLibrary)) before
  | uninspected {path library : Path} {front back : List Path} {fault : FileFault}
    (contained : containedPath? (Text.trim inner) = some path)
    (split : libraries = front ++ library :: back)
    (earlier : ∀ candidate ∈ front, files.exists? (candidate.join path) = .ok false)
    (fails : files.exists? (library.join path) = .error fault) :
    Refuses files libraries context inner before
      (.staging (.inspect (library.join path) fault)) before
  | uncopied {path library : Path} {fault : StagingFault} {after : World}
    (contained : containedPath? (Text.trim inner) = some path)
    (holder : FirstHolder files libraries path library)
    (fails : (TreeCopy.copy (library.join path) (context.join path)).run.run before =
      (.error fault, after)) :
    Refuses files libraries context inner before (.staging fault) after

/-- A reference is copied from the first library that holds its path, or it is refused. -/
theorem fetch_copies_or_refuses (inner : Text) (world : World) :
    (fetch libraries context inner).Ends world
      (fun _ after => ∃ path library count copied event,
        containedPath? (sharedPath inner) = some path ∧
        (findLibrary? path libraries).run.run world = (.ok (some library), world) ∧
        FirstHolder world.files libraries path library ∧
        (TreeCopy.copy (library.join path) (context.join path)).run.run world =
          (.ok count, copied) ∧
        after = { copied with log := copied.log ++ [event] })
      (fun fault after => Refuses world.files libraries context inner world fault after) := by
  unfold fetch
  cases contained : containedPath? (sharedPath inner) with
  | none => exact .rejected contained
  | some path =>
    simp only [Action.ends_bind, Action.ends_blaming]
    refine ((Action.ends_run _).and (findLibrary?_ends path libraries)).mono ?_ ?_
    · rintro found _ ⟨run, rfl, ends⟩
      cases ends with
      | missing nowhere => exact .unheld contained nowhere
      | @holds library holder =>
        simp only [Action.ends_bind, Action.ends_blaming, Action.ends_note]
        refine (Action.ends_run _).mono ?_ ?_
        · intro count copied copies
          exact ⟨path, library, count, copied, _, rfl, run, holder, copies, rfl⟩
        · intro fault after fails
          exact .uncopied contained holder fails
    · rintro _ _ ⟨-, rfl, ends⟩
      cases ends with
      | stops split earlier fails => exact .uninspected contained split earlier fails

theorem Refuses.confined {files : FileSystem} {inner : Text} {fault : Failure} {after : World}
    (refuses : Refuses files libraries context inner world fault after)
    (confined : Confined start context root world.files) :
    Confined start context root after.files := by
  cases refuses with
  | rejected => exact confined
  | unheld => exact confined
  | uninspected => exact confined
  | uncopied contained holder fails =>
    obtain ⟨_, _, ends⟩ := copy_held_ends contained holder confined
    exact (ends.of_error fails).1

/-- What one fetched reference has done. -/
theorem fetch_ends (inner : Text) (confined : Confined start context root world.files) :
    (fetch libraries context inner).Ends world
      (fun _ after => Confined start context root after.files ∧
        (LibrariesApart start root libraries → ∃ (front : List Name) (tree : _),
          Overlaid tree (root ++ front) world.files after.files ∧
            ∀ place entry, Brings start libraries inner place entry ↔
              ∃ rest, place = front ++ rest ∧ tree rest = some entry))
      (fun _ after => Confined start context root after.files) := by
  refine (fetch_copies_or_refuses inner world).mono ?_ fun _ _ refuses => refuses.confined confined
  rintro _ _ ⟨path, library, count, copied, event, contained, -, holder, copies, rfl⟩
  obtain ⟨front, moves, ends⟩ := copy_held_ends contained holder confined
  obtain ⟨confinedThen, laid⟩ := ends.of_ok copies
  refine ⟨confinedThen, fun apart => ⟨front, _, laid apart, fun place entry => ?_⟩⟩
  exact brings_iff contained (holder.at_start confined apart contained) moves

/-- What a reference brought goes on to stand where some of what another one brings is laid. -/
theorem Brings.still_stands {earlier inner : Text} {front place : List Name} {entry : Entry}
    {tree : List Name → Option Entry} {files other : FileSystem}
    (brought : Brings start libraries earlier place entry)
    (brings : ∀ place entry, Brings start libraries inner place entry ↔
      ∃ rest, place = front ++ rest ∧ tree rest = some entry)
    (part : PartLaid tree (root ++ front) files other)
    (stands : files.get? (root ++ place) = some entry) :
    other.get? (root ++ place) = some entry := by
  refine part.still_stands stands fun rest found isPlace ofTree => ?_
  rw [List.append_assoc] at isPlace
  have also := (brings place found).2 ⟨rest, List.append_cancel_left isPlace, ofTree⟩
  exact also.unique brought

/-- What fetching some references has done. -/
structure Fetched (start : FileSystem) (root : Location) (libraries : List Path)
    (fetched : List Text) (files other : FileSystem) : Prop where
  resolves : ∀ inner ∈ fetched, ∃ place entry, Brings start libraries inner place entry
  present : ∀ inner ∈ fetched, ∀ place entry, Brings start libraries inner place entry →
    other.get? (root ++ place) = some entry
  /-- Besides, there can be new directories above what a reference brings. -/
  others : ∀ place, (∀ inner ∈ fetched, ∀ entry, ¬ Brings start libraries inner place entry) →
    other.get? (root ++ place) = files.get? (root ++ place) ∨
      (files.get? (root ++ place) = none ∧ other.get? (root ++ place) = some .directory ∧
        ∃ inner ∈ fetched, ∃ rest entry, Brings start libraries inner (place ++ rest) entry)

namespace Fetched

variable {files other third : FileSystem} {fetched : List Text} {inner : Text}

theorem nil (files : FileSystem) : Fetched start root libraries [] files files :=
  ⟨fun _ member => (List.not_mem_nil member).elim, fun _ member => (List.not_mem_nil member).elim,
    fun _ _ => .inl rfl⟩

/-- One more reference leaves in place what the earlier ones brought. -/
theorem step {front : List Name} {tree : List Name → Option Entry}
    (before : Fetched start root libraries fetched files other)
    (laid : Overlaid tree (root ++ front) other third)
    (brings : ∀ place entry, Brings start libraries inner place entry ↔
      ∃ rest, place = front ++ rest ∧ tree rest = some entry) :
    Fetched start root libraries (fetched ++ [inner]) files third := by
  have part : PartLaid tree (root ++ front) other third := .of_overlaid laid
  obtain ⟨top, atTop⟩ := Option.isSome_iff_exists.1 laid.stands
  have broughtTop : Brings start libraries inner front top :=
    (brings _ _).2 ⟨[], (List.append_nil _).symm, atTop⟩
  refine ⟨?_, ?_, ?_⟩
  · intro inner' member
    rcases List.mem_append.1 member with earlier | last
    · exact before.resolves inner' earlier
    · rw [List.mem_singleton.1 last]
      exact ⟨front, top, broughtTop⟩
  · intro inner' member place entry brought
    rcases List.mem_append.1 member with earlier | last
    · exact brought.still_stands brings part (before.present inner' earlier place entry brought)
    · rw [List.mem_singleton.1 last] at brought
      obtain ⟨rest, rfl, stands⟩ := (brings place entry).1 brought
      rw [← List.append_assoc]
      exact laid.supplied rest entry stands
  · intro place notBrought
    have notEarlier := before.others place fun inner' member =>
      notBrought inner' (List.mem_append_left _ member)
    have notOfTree : ∀ rest, root ++ place = root ++ front ++ rest → tree rest = none := by
      intro rest same
      rw [List.append_assoc] at same
      by_contra some
      obtain ⟨entry, stands⟩ := Option.ne_none_iff_exists'.1 some
      exact notBrought inner (by simp) entry
        ((brings _ _).2 ⟨rest, List.append_cancel_left same, stands⟩)
    rcases part (root ++ place) with same | ⟨rest, entry, same, ofTree, _⟩ | ⟨nothing, made⟩
    · rw [same]
      rcases notEarlier with unchanged | ⟨nothing, standing, inner', member, leadsTo⟩
      · exact .inl unchanged
      · exact .inr ⟨nothing, standing, inner', List.mem_append_left _ member, leadsTo⟩
    · cases (notOfTree rest same).symm.trans ofTree
    · have above := laid.above_of_made nothing made notOfTree
      obtain ⟨rest, rfl⟩ := (List.prefix_append_right_inj root).1 above
      rcases notEarlier with unchanged | ⟨_, standing, _⟩
      · exact .inr ⟨unchanged ▸ nothing, made, inner, by simp, rest, top, broughtTop⟩
      · cases nothing.symm.trans standing

end Fetched

theorem forM_fetch_ends (references : List Text)
    (confined : Confined start context root world.files) :
    (references.forM (fetch libraries context)).Ends world
      (fun _ after => Confined start context root after.files ∧
        (LibrariesApart start root libraries →
          Fetched start root libraries references world.files after.files))
      (fun _ after => Confined start context root after.files) := by
  refine Ends.forM (fun fetched after => Confined start context root after.files ∧
    (LibrariesApart start root libraries →
      Fetched start root libraries fetched world.files after.files)) ?_ ?_
  · exact ⟨confined, fun _ => .nil _⟩
  · rintro before inner _ middle ⟨confined, fetched⟩
    refine (fetch_ends inner confined).mono ?_ fun _ _ confined => confined
    rintro _ after ⟨confined, laid⟩
    refine ⟨confined, fun apart => ?_⟩
    obtain ⟨front, tree, laid, brings⟩ := laid apart
    exact (fetched apart).step laid brings

theorem resolveFiles_ends (template : Text)
    (confined : Confined start context root world.files) :
    (resolveFiles template libraries context).Ends world
      (fun text after => text = withPaths template ∧ Confined start context root after.files ∧
        (LibrariesApart start root libraries →
          Fetched start root libraries (references .file template) world.files after.files))
      (fun _ after => Confined start context root after.files) := by
  rw [resolveFiles_eq]
  simp only [Action.ends_bind, Action.ends_pure]
  exact (forM_fetch_ends _ confined).mono (fun _ _ fetched => ⟨trivial, fetched⟩)
    fun _ _ confined => confined

end ImageStaging.Template
