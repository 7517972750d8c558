import ImageStaging.Proofs.Dependence.Alike
import ImageStaging.Proofs.Files
import ImageStaging.Proofs.Staging.Reset
import ImageStaging.Replacement

/-!
# Working with files depends on the files only

Making directories, removing and copying trees and staging a context are actions on files; replacing
a file also depends on what storage does with it. A directory that is emptied or copied may list its
entries in any order: the first leaves nothing of them, and the second reads them in the order of
their names.
-/

namespace ImageStaging

open FileSystem (Emptied Inner)
open ImageStaging.Action (Ends OnFiles onFiles_asked onFiles_change onFiles_edit onFiles_get
  onFiles_look onFiles_note onFiles_pure onFiles_throw onStorage_askStorage onStorage_get)

/-! ## Working with files -/

namespace Files

theorem onFiles_accept (path : Path) (fault : FileFault) :
    (makeDirectoriesWithin.accept path fault).OnFiles := by
  refine onFiles_get (fun world other same => by rw [same.isDirectory_eq]) fun world => ?_
  split
  · exact onFiles_pure _
  · exact onFiles_throw _

theorem onFiles_settle (path : Path) : (makeDirectoriesWithin.settle path).OnFiles := by
  refine (onFiles_edit fun _ _ same => same.makeDirectory_eq path).attempt.bind fun made => ?_
  cases made with
  | ok => exact onFiles_pure _
  | error fault => exact onFiles_accept path fault

theorem onFiles_makeDirectoriesWithin (depth : Nat) (path : Path) :
    (makeDirectoriesWithin depth path).OnFiles := by
  induction depth generalizing path with
  | zero => exact onFiles_throw _
  | succ depth ih =>
    unfold makeDirectoriesWithin
    split
    · exact onFiles_pure _
    · refine (onFiles_edit fun _ _ same => same.makeDirectory_eq path).attempt.bind fun made => ?_
      split
      · exact onFiles_pure _
      · split
        · exact onFiles_throw _
        · exact (ih _).bind fun _ => onFiles_settle path
      · exact onFiles_accept path _

theorem onFiles_makeDirectories (path : Path) : (makeDirectories path).OnFiles :=
  onFiles_makeDirectoriesWithin _ path

theorem emptied_inside {location place : Location} {files other : FileSystem}
    (emptied : Emptied location files other) (inner : Inner location place) :
    other.get? place = none := by
  obtain ⟨⟨rest, rfl⟩, proper⟩ := inner
  cases rest with
  | nil => exact absurd (List.append_nil location) proper
  | cons child rest =>
    have notDirectory : other.get? (location ++ [child]) ≠ some .directory := by
      rw [emptied.inside child]
      exact nofun
    rcases List.eq_nil_or_concat' rest with rfl | ⟨front, last, rfl⟩
    · exact emptied.inside child
    · have gone : other.get? (location ++ [child] ++ (front ++ [last])) = none :=
        FileSystem.get?_below_of_not_directory notDirectory (by simp)
      rwa [List.append_assoc] at gone

/-- Two directories with the same entries around them are alike once they are emptied. -/
theorem same_of_emptied {location : Location} {files files' other other' : FileSystem}
    (same : files.Same files') (emptied : Emptied location files other)
    (emptied' : Emptied location files' other') : other.Same other' := by
  constructor
  · rw [emptied'.workingDirectory, emptied.workingDirectory, same.workingDirectory]
  · intro place
    by_cases inner : Inner location place
    · rw [emptied_inside emptied inner, emptied_inside emptied' inner]
    · rw [emptied'.get? place inner, emptied.get? place inner, same.get?]

/-- The children of a directory may be taken away in any order. -/
theorem onFiles_removeChildren (location : Location) :
    (get >>= fun world => forIn (world.files.children location) PUnit.unit fun child _ => do
      Action.change (.remove (location ++ [child]))
      pure (ForInStep.yield PUnit.unit) : Action FileFault PUnit).OnFiles := by
  intro world other same
  obtain ⟨⟨⟩, after, run, emptied⟩ := (removeChildren_ends location : Ends _ world _ _).exists_run
  obtain ⟨⟨⟩, after', run', emptied'⟩ :=
    (removeChildren_ends location : Ends _ other _ _).exists_run
  have quiet : ∀ names : List Name, (forIn names PUnit.unit fun child _ => do
      Action.change (.remove (location ++ [child]))
      pure (ForInStep.yield PUnit.unit) : Action FileFault PUnit).OnFiles :=
    fun names => .forIn (fun child _ => (onFiles_change _).bind fun _ => onFiles_pure _) _
  refine ⟨.ok ⟨⟩, after, after', run, run', same_of_emptied same emptied emptied', ?_, ?_⟩
  · exact (quiet _).beside_of_run run
  · exact (quiet _).beside_of_run run'

theorem onFiles_removeTree (path : Path) : (removeTree path).OnFiles := by
  unfold removeTree
  refine (onFiles_look fun _ _ same => same.locate_eq .entry path).bind fun location => ?_
  rw [← bind_assoc]
  refine (onFiles_removeChildren location).bind fun _ => ?_
  refine (onFiles_edit fun _ _ same => same.removeDirectory_eq path).attempt.bind fun removed => ?_
  split
  · exact onFiles_pure _
  · exact onFiles_pure _
  · exact onFiles_throw _

theorem onFiles_create (path : Path) : (create path).OnFiles := by
  refine (onFiles_look fun _ _ same => same.writable_eq path).bind fun writable => ?_
  obtain ⟨location, entry⟩ := writable
  dsimp only
  split
  · exact onFiles_pure _
  · exact (onFiles_change _).bind fun _ => onFiles_pure _
  · exact (onFiles_change _).bind fun _ => onFiles_pure _

theorem onFiles_fill (location : Location) (content : Bytes) :
    (fill location content).OnFiles := by
  unfold fill
  split
  · exact onFiles_pure _
  · refine onFiles_get (fun world other same => by rw [same.get?]) fun world => ?_
    split
    · exact onFiles_change _
    · exact onFiles_throw _

theorem onFiles_transfer (source target : Location) : (transfer source target).OnFiles := by
  refine onFiles_get (fun world other same => by rw [same.get?]) fun world => ?_
  split
  · exact onFiles_fill target _
  · exact onFiles_pure _

/-- Writing and syncing ask storage. -/
theorem onStorage_write (location : Location) (content : Bytes) :
    (write location content).OnStorage := by
  unfold write
  split
  · exact (onFiles_pure _).onStorage
  · refine onStorage_get (fun world other same => by rw [same.get?]) fun world => ?_
    split
    · refine onStorage_askStorage.bind fun failed? => ?_
      split
      · exact (onFiles_change _).onStorage
      · exact ((onFiles_change _).bind fun _ => onFiles_throw _).onStorage
    · exact (onFiles_throw _).onStorage

theorem onStorage_sync (location : Location) : (sync location).OnStorage := by
  refine onStorage_get (fun world other same => by rw [same.get?]) fun world => ?_
  split
  · refine onStorage_askStorage.bind fun failed? => ?_
    split
    · exact (onFiles_pure _).onStorage
    · exact (onFiles_throw _).onStorage
  · exact (onFiles_throw _).onStorage

theorem onFiles_copy (source target : Path) : (copy source target).OnFiles := by
  rw [copy_eq]
  refine (onFiles_look fun _ _ same => same.locate_eq .target source).bind fun location => ?_
  refine onFiles_get (fun world other same => by rw [same.get?]) fun world => ?_
  split
  · refine (onFiles_look fun _ _ same => same.writable_eq target).bind fun writable => ?_
    obtain ⟨place, entry⟩ := writable
    dsimp only
    split
    · exact onFiles_transfer location place
    · exact (onFiles_change _).bind fun _ => onFiles_transfer location place
  · exact onFiles_throw _

end Files

/-! ## Copying -/

namespace TreeCopy

theorem onFiles_copyFile (source target : Path) : (copyFile source target).OnFiles := by
  have copied : (do
      (Files.copy source target).blaming (.copy source target)
      Action.note ⟨.copying, .debug, "copied file",
        [("from", source.display), ("to", target.display)]⟩ : Action StagingFault Unit).OnFiles :=
    (Files.onFiles_copy source target).blaming.bind fun _ => onFiles_note _
  unfold copyFile
  split
  · exact (Files.onFiles_makeDirectories _).blaming.bind fun _ => copied
  · exact copied

theorem onFiles_follow (ancestors : List Ancestor) (path : Path) (entry : Entry) :
    (follow ancestors path entry).OnFiles := by
  unfold follow
  split
  · refine (onFiles_look fun _ _ same => same.locate_eq .target path).blaming.bind
      fun location => ?_
    refine onFiles_get (fun world other same => by rw [same.get?]) fun world => ?_
    split
    · split
      · exact onFiles_throw _
      · exact onFiles_pure _
    · exact onFiles_pure _
    · exact onFiles_throw _
  · exact onFiles_pure _

/-- A directory that is opened in two file systems with the same entries has the same names. -/
theorem openDirectory_same {files files' : FileSystem} (same : files.Same files') (path : Path) :
    (∃ fault, openDirectory files path = .error fault ∧
      openDirectory files' path = .error fault) ∨
      ∃ location listing listing', openDirectory files path = .ok (location, listing) ∧
        openDirectory files' path = .ok (location, listing') ∧ List.Perm listing listing' := by
  simp only [openDirectory, same.locate_eq .target path]
  cases files.locate .target path with
  | error fault => exact .inl ⟨fault, rfl, rfl⟩
  | ok location =>
    rcases same.list_perm path with
      ⟨fault, listed, listed'⟩ | ⟨listing, listing', listed, listed', perm⟩
    · rw [listed, listed']
      exact .inl ⟨fault, rfl, rfl⟩
    · rw [listed, listed']
      exact .inr ⟨location, listing, listing', rfl, rfl, perm⟩

theorem onFiles_visit (source target : Path) (depth : Nat) (ancestors : List Ancestor)
    (path relative : Path) (entry : Entry) :
    (visit source target depth ancestors path relative entry).OnFiles := by
  induction depth generalizing ancestors path relative entry with
  | zero => exact onFiles_throw _
  | succ depth ih =>
    refine (onFiles_follow ancestors path entry).blaming.bind fun found => ?_
    split
    · refine onFiles_asked (fun files files' same => ?_) fun opened => ?_
      · rcases openDirectory_same same path with
          ⟨fault, opened, opened'⟩ | ⟨location, listing, listing', opened, opened', perm⟩
        · rw [opened, opened']
        · rw [opened, opened']
          simp only [Name.mergeSort_eq_of_perm perm]
      · refine (Files.onFiles_makeDirectories _).blaming.bind fun _ => ?_
        split
        · exact onFiles_throw _
        · refine OnFiles.foldlM (fun copied name _ => ?_) 0
          refine onFiles_get (fun world other same => by rw [same.get?]) fun world => ?_
          exact (ih _ _ _ _).bind fun more => onFiles_pure _
    · exact (onFiles_copyFile _ _).bind fun _ => onFiles_pure _

theorem onFiles_copy (source target : Path) : (copy source target).OnFiles := by
  refine (onFiles_look fun _ _ same => same.examine_eq source).blaming.bind fun entry => ?_
  split
  · exact (onFiles_copyFile source target).bind fun _ => onFiles_pure _
  · refine (onFiles_look fun _ _ same => same.examineLink_eq source).blaming.bind fun entry => ?_
    exact onFiles_visit source target _ _ _ _ entry

end TreeCopy

namespace Replacement

theorem onStorage_orDiscard {step : Action FileFault Unit} (onStorage : step.OnStorage)
    (temporary : Path) (tell : FileFault → StagingFault) :
    (orDiscard temporary tell step).OnStorage := by
  refine onStorage.attempt.bind fun result => ?_
  split
  · exact (onFiles_pure _).onStorage
  · have discards : (discard temporary).OnFiles :=
      (onFiles_edit fun _ _ same => same.removeFile_eq temporary).attempt.bind
        fun _ => onFiles_pure _
    exact (discards.bind fun _ => onFiles_throw _).onStorage

theorem onFiles_makeParent (path : Path) : (makeParent path).OnFiles := by
  unfold makeParent
  split
  · exact onFiles_pure _
  · refine onFiles_get (fun world other same => by rw [same.exists?_eq]) fun world => ?_
    split
    · exact onFiles_pure _
    · exact (Files.onFiles_makeDirectories _).blaming

theorem onStorage_replace (path : Path) (content : Bytes) : (replace path content).OnStorage := by
  refine (onFiles_makeParent path).onStorage.bind fun _ => ?_
  split
  · exact (onFiles_throw _).onStorage
  · refine (Files.onFiles_create _).blaming.onStorage.bind fun location => ?_
    refine (onStorage_orDiscard (Files.onStorage_write location content) _ _).bind fun _ => ?_
    refine (onStorage_orDiscard (Files.onStorage_sync location) _ _).bind fun _ => ?_
    exact onStorage_orDiscard (onFiles_edit fun _ _ same => same.rename_eq _ path).onStorage _ _

end Replacement

/-! ## Staging -/

namespace Staging

theorem onFiles_reset (path : Path) : (reset path).OnFiles := by
  refine onFiles_get (fun world other same => by rw [same.examineLink_eq]) fun world => ?_
  split
  · rename_i entry _
    have removal : (if entry = .directory then Files.removeTree path
        else Action.edit (FileSystem.removeFile path)).OnFiles := by
      split
      · exact Files.onFiles_removeTree path
      · exact onFiles_edit fun _ _ same => same.removeFile_eq path
    refine removal.blaming.bind fun _ => (onFiles_note _).bind fun _ => ?_
    exact (Files.onFiles_makeDirectories path).blaming
  · exact (Files.onFiles_makeDirectories path).blaming
  · exact onFiles_throw _

theorem onFiles_existsAt (path : Path) : (existsAt path).OnFiles :=
  (onFiles_look fun _ _ same => same.exists?_eq path).blaming

theorem onFiles_flavour? (source : Path) : (flavour? source).OnFiles := by
  refine (onFiles_existsAt _).bind fun template => ?_
  split
  · exact onFiles_pure _
  · refine (onFiles_existsAt _).bind fun plain => ?_
    split
    · exact onFiles_pure _
    · exact onFiles_pure _

theorem onFiles_populate (source context : Path) : (populate source context).OnFiles := by
  refine (onFiles_flavour? source).bind fun flavour => ?_
  have tree : (do
      if ← existsAt (source.join (Path.ofString Layout.sourceTree)) then
        let copied ← TreeCopy.copy (source.join (Path.ofString Layout.sourceTree))
          (context.join (Path.ofString Layout.sourceTree))
        Action.note ⟨.staging, .debug, "copied source tree", [("files", toString copied)]⟩
      pure flavour : Action StagingFault (Option Flavour)).OnFiles := by
    refine (onFiles_existsAt _).bind fun present => ?_
    split
    · exact (TreeCopy.onFiles_copy _ _).bind fun copied => (onFiles_note _).bind fun _ =>
        onFiles_pure _
    · exact onFiles_pure _
  split
  · exact (TreeCopy.onFiles_copy _ _).bind fun _ => tree
  · exact tree

theorem onFiles_classify (source : Path) : (classify source).OnFiles := by
  refine (onFiles_flavour? source).blaming.bind fun flavour => ?_
  split
  · exact onFiles_pure _
  · exact onFiles_throw _

/-- What staging does once the context is empty. -/
def fill (source context : Path) : Action Failure BuildContext := do
  let _ ← (populate source context).blaming .staging
  let flavour ← classify source
  Action.note ⟨.staging, .info, "staged build context",
    [("context", context.display), ("dockerfile", s!"\"{flavour.fileName}\"")]⟩
  pure ⟨context, flavour⟩

theorem stage_eq (source context : Path) :
    stage source context = (do
      (reset context).blaming .staging
      fill source context) := rfl

theorem onFiles_fill (source context : Path) : (fill source context).OnFiles := by
  refine (onFiles_populate source context).blaming.bind fun _ => ?_
  refine (onFiles_classify source).bind fun flavour => ?_
  exact (onFiles_note _).bind fun _ => onFiles_pure _

theorem onFiles_stage (source context : Path) : (stage source context).OnFiles :=
  (onFiles_reset context).blaming.bind fun _ => onFiles_fill source context

end Staging

end ImageStaging
