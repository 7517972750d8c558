import ImageStaging.Proofs.Template.Overlap
import ImageStaging.Proofs.TreeCopy.Completion

/-!
# A reference to a directory

A template whose one reference names a directory of a library brings the tree of that directory into
an empty context if, and only if, the path of the reference does not end in a `.` and a copy can deal
with all of the tree. The check of the path lets a `.` at the end through, the search finds the
directory by it, and the context cannot be given one by it.
-/

namespace ImageStaging.Template

open FileSystem (Confined Overlaid Vacant)
open TreeCopy (Copyable CopyableBelow)

variable {files other : FileSystem} {context library path : Path} {root top : Location}
  {front : List Name} {tree : List Name → Option Entry} {template inner : Text} {world : World}

/-- A directory holds a tree at some names and nothing else but what is above it, and it is all that
is different. -/
structure HoldsOnly (tree : List Name → Option Entry) (root : Location) (front : List Name)
    (files other : FileSystem) : Prop where
  copied : ∀ rest, other.get? (root ++ (front ++ rest)) = tree rest
  above : ∀ place, place <+: front → place ≠ front → other.get? (root ++ place) = some .directory
  nothing : ∀ place, ¬ place <+: front → ¬ front <+: place → other.get? (root ++ place) = none
  outside : ∀ location, ¬ root <+: location → other.get? location = files.get? location

section Vacant

variable (isDirectory : files.get? root = some .directory)
  (vacant : ∀ name, files.get? (root ++ [name]) = none)
include vacant

theorem nothing_below {place : List Name} (proper : place ≠ []) :
    files.get? (root ++ place) = none := by
  obtain ⟨name, rest, rfl⟩ := List.exists_cons_of_ne_nil proper
  exact FileSystem.get?_below_of_nothing (vacant name) ⟨rest, by simp⟩

include isDirectory

theorem plain_of_vacant : files.Plain root := by
  intro place entry stands
  by_cases here : place = []
  · rw [here, List.append_nil, isDirectory] at stands
    exact .inl (Option.some.inj stands).symm
  · cases (nothing_below vacant here).symm.trans stands

theorem vacant_below {place : List Name} (proper : place ≠ []) : Vacant files (root ++ place) := by
  refine ⟨nothing_below vacant proper, fun above within => ?_⟩
  rcases List.prefix_or_prefix_of_prefix within (List.prefix_append root place) with
    aboveRoot | ⟨rest, rfl⟩
  · exact FileSystem.Free.of_directory isDirectory above aboveRoot
  · by_cases here : rest = []
    · exact .inr (by rw [here, List.append_nil, isDirectory])
    · exact .inl (nothing_below vacant here)

/-- A tree laid in an empty directory is all that the directory holds. -/
theorem HoldsOnly.of_overlaid (proper : front ≠ [])
    (laid : Overlaid tree (root ++ front) files other) : HoldsOnly tree root front files other := by
  have notAbove {place : List Name} (outside : ¬ place <+: front) :
      ¬ root ++ place <+: root ++ front :=
    fun within => outside ((List.prefix_append_right_inj root).1 within)
  refine ⟨fun rest => ?_, fun place within differ => ?_, fun place notAboveFront notBelow => ?_,
    fun location outside => ?_⟩
  · cases stands : tree rest with
    | some entry =>
      rw [← List.append_assoc]
      exact laid.supplied rest entry stands
    | none =>
      have below : rest ≠ [] := by
        rintro rfl
        have top := laid.stands
        rw [stands] at top
        cases top
      have unprefixed : ¬ front ++ rest <+: front := fun within =>
        below (FileSystem.eq_nil_of_above within)
      rw [laid.elsewhere _ (notAbove unprefixed), nothing_below vacant (by simp [proper])]
      intro names same
      rw [List.append_assoc] at same
      rw [← List.append_cancel_left (List.append_cancel_left same), stands]
  · refine (laid.above (root ++ place) ((List.prefix_append_right_inj root).2 within) ?_).1
    exact fun same => differ (List.append_cancel_left same)
  · have below : place ≠ [] := by
      rintro rfl
      exact notAboveFront List.nil_prefix
    rw [laid.elsewhere _ (notAbove notAboveFront), nothing_below vacant below]
    intro names same
    rw [List.append_assoc] at same
    exact absurd ⟨names, (List.append_cancel_left same).symm⟩ notBelow
  · by_cases within : location <+: root ++ front
    · have aboveRoot : location <+: root :=
        (List.prefix_or_prefix_of_prefix within (List.prefix_append _ _)).resolve_right outside
      have differ : location ≠ root := fun same => outside (same ▸ List.prefix_rfl)
      have differ' : location ≠ root ++ front := by
        rintro rfl
        exact outside (List.prefix_append _ _)
      rw [(laid.above location within differ').1,
        FileSystem.get?_ancestor aboveRoot differ (by rw [isDirectory]; rfl)]
    · refine laid.elsewhere location within ?_
      rintro names rfl
      rw [List.append_assoc] at outside
      exact absurd (List.prefix_append _ _) outside

end Vacant

section Reference

variable (found : world.files.locate .target context = .ok root)
  (isDirectory : world.files.get? root = some .directory)
  (vacant : ∀ name, world.files.get? (root ++ [name]) = none)
  (apart : world.files.Apart root library)
  (contained : containedPath? (sharedPath inner) = some path)
  (leads : world.files.locate .target (library.join path) = .ok top)
  (isTop : world.files.get? top = some .directory) (finite : world.files.FiniteTree top)
include found isDirectory vacant apart contained leads isTop finite

theorem fetch_directory_ends :
    (fetch [library] context inner).Ends world
      (fun _ after => (¬ path.EndsInDot ∧
          CopyableBelow world.files (library.join path) (context.join path) top []) ∧
        ∃ front : List Name, path.moves = front.map .enter ∧
          HoldsOnly (world.files.tree (library.join path)) root front world.files after.files)
      (fun _ _ => ¬ (¬ path.EndsInDot ∧
        CopyableBelow world.files (library.join path) (context.join path) top [])) := by
  have confined := Confined.of_plain found isDirectory (plain_of_vacant isDirectory vacant)
  have holds : world.files.exists? (library.join path) = .ok true :=
    FileSystem.exists?_eq_ok_true_iff.2 ⟨_, FileSystem.examine_of_locate leads isTop⟩
  have holder : FirstHolder world.files [library] path library := ⟨[], [], rfl, by simp, holds⟩
  obtain ⟨relative, -, proper⟩ := contained_moves contained
  have sameEnd : (context.join path).EndsInDot ↔ path.EndsInDot := by
    refine Path.endsInDot_join relative fun noSteps => proper ?_
    rw [Path.moves, noSteps]
    rfl
  obtain ⟨front, properFront, moves⟩ := names_of_holder contained holds
  have apartBelow : world.files.Apart root (library.join path) := apart_join apart relative moves
  have completes := TreeCopy.copy_completes leads isTop finite apartBelow
    (descends_join contained moves) properFront confined
    (vacant_below isDirectory vacant properFront)
  rw [sameEnd] at completes
  have lays := TreeCopy.copy_ends (bytes_join_ne_nil contained library)
    (descends_join contained moves) properFront confined
  refine (fetch_copies_or_refuses inner world).mono ?_ ?_
  · rintro _ _ ⟨path', library', count, copied, event, contained', -, holder', copies, rfl⟩
    obtain rfl := Option.some.inj (contained.symm.trans contained')
    obtain rfl := holder.unique holder'
    exact ⟨completes.of_ok copies, front, moves,
      .of_overlaid isDirectory vacant properFront ((lays.of_ok copies).2 apartBelow)⟩
  · intro fault after refuses
    cases refuses with
    | rejected outside => cases contained.symm.trans outside
    | unheld contained' nowhere =>
      obtain rfl := Option.some.inj (contained.symm.trans contained')
      cases (nowhere library (List.mem_singleton_self library)).symm.trans holds
    | @uninspected path' library' before _ _ contained' split earlier fails =>
      obtain rfl := Option.some.inj (contained.symm.trans contained')
      obtain rfl : library' = library := by
        have member : library' ∈ [library] := by
          rw [split]
          simp
        exact List.mem_singleton.1 member
      cases fails.symm.trans holds
    | uncopied contained' holder' fails =>
      obtain rfl := Option.some.inj (contained.symm.trans contained')
      obtain rfl := holder.unique holder'
      exact completes.of_error fails

/-- A reference to a directory is resolved if, and only if, its path does not end in a `.` and a
copy can deal with all of the tree. The context, which was empty, then holds that tree at the names
of the path, however those are spelled, and nothing else. -/
theorem directory_reference_used_iff (single : references .file template = [inner]) :
    ((∃ text after, (resolveFiles template [library] context).run.run world = (.ok text, after)) ↔
      ¬ path.EndsInDot ∧ ∀ names location, world.files.Follows top names location →
        Copyable world.files (library.join path) (context.join path) names location) ∧
    ∀ text after, (resolveFiles template [library] context).run.run world = (.ok text, after) →
      text = withPaths template ∧ ∃ front : List Name, path.moves = front.map .enter ∧
        HoldsOnly (world.files.tree (library.join path)) root front world.files after.files := by
  have ends := fetch_directory_ends found isDirectory vacant apart contained leads isTop finite
  have resolves : (resolveFiles template [library] context).Ends world
      (fun text after => (¬ path.EndsInDot ∧
          CopyableBelow world.files (library.join path) (context.join path) top []) ∧
        text = withPaths template ∧ ∃ front : List Name, path.moves = front.map .enter ∧
          HoldsOnly (world.files.tree (library.join path)) root front world.files after.files)
      (fun _ _ => ¬ (¬ path.EndsInDot ∧
        CopyableBelow world.files (library.join path) (context.join path) top [])) := by
    rw [resolveFiles_eq, single, Action.ends_bind, Action.forM_eq_foldlM, List.foldlM_cons,
      Action.ends_bind]
    exact ends.mono (fun _ _ done => ⟨done.1, rfl, done.2⟩) fun _ _ failed => failed
  constructor
  · rcases resolves.ending with ⟨text, after, run, all, -⟩ | ⟨fault, after, run, failed⟩
    · exact ⟨fun _ => all, fun _ => ⟨text, after, run⟩⟩
    · refine ⟨?_, fun all => absurd all failed⟩
      rintro ⟨text, after', run'⟩
      cases run.symm.trans run'
  · intro text after run
    exact (resolves.of_ok run).2

end Reference

/-- In a directory without children there is nothing. -/
theorem vacant_of_children (none : files.children root = []) (name : Name) :
    files.get? (root ++ [name]) = Option.none := by
  by_contra stands
  have member := FileSystem.mem_children.2 (Option.isSome_iff_ne_none.2 stands)
  rw [none] at member
  cases member

/-- The directory `twig` can be brought into the context, but not by the path `twig/.`. -/
theorem directory_reference_used_iff_dot :
    (¬ ∃ text after, (resolveFiles "%%_COMMON/twig/.%%".toList [Path.ofString "/common"]
      nestedContext).run.run { files := nestedFiles } = (.ok text, after)) ∧
    ∃ text after, (resolveFiles "%%_COMMON/twig%%".toList [Path.ofString "/common"]
      nestedContext).run.run { files := nestedFiles } = (.ok text, after) := by
  constructor
  · have context : nestedFiles.locate .target nestedContext = .ok [Layout.nameOf "staged"] ∧
        nestedFiles.get? [Layout.nameOf "staged"] = some .directory ∧
        nestedFiles.children [Layout.nameOf "staged"] = [] := by decide
    have source : nestedFiles.locate .target
        ((Path.ofString "/common").join (Path.ofString "twig/.")) =
          .ok [Layout.nameOf "common", Layout.nameOf "twig"] ∧
        nestedFiles.get? [Layout.nameOf "common", Layout.nameOf "twig"] = some .directory := by
      decide +kernel
    have reads : references .file "%%_COMMON/twig/.%%".toList = ["twig/.".toList] ∧
        containedPath? (sharedPath "twig/.".toList) = some (Path.ofString "twig/.") ∧
        (Path.ofString "twig/.").EndsInDot := by decide +kernel
    have tree : nestedFiles.FiniteTree [Layout.nameOf "common", Layout.nameOf "twig"] :=
      .of_plain source.2 (FileSystem.plain_of_entries (by decide))
    intro succeeds
    have used := (directory_reference_used_iff context.1 context.2.1
      (vacant_of_children context.2.2) (nestedFiles_apart _ (List.mem_singleton_self _)) reads.2.1
      source.1 source.2 tree reads.1).1.1 succeeds
    exact used.1 reads.2.2
  · have gives : ((resolveFiles "%%_COMMON/twig%%".toList [Path.ofString "/common"]
        nestedContext).run.run { files := nestedFiles }).1.toOption = some "twig".toList := by
      decide +kernel
    exact ⟨_, Action.exists_run_of_toOption gives⟩

end ImageStaging.Template
