import ImageStaging.Proofs.Build.Assembly
import ImageStaging.Proofs.Dependence.Steps

/-!
# What the steps of a build depend on

Up to the call of the tool, each step of a build is an action on files, but for the writing of the
Dockerfile, which may fail as storage has it: what the log held before, what was printed and which
tools were started makes no difference to it.
-/

namespace ImageStaging

open ImageStaging.Action (OnFiles onFiles_edit onFiles_list onFiles_look onFiles_note onFiles_pure
  onFiles_throw)

namespace Template

theorem onFiles_findLibrary? (path : Path) (libraries : List Path) :
    (findLibrary? path libraries).OnFiles := by
  induction libraries with
  | nil => exact onFiles_pure _
  | cons library rest ih =>
    refine (onFiles_look fun _ _ same => same.exists?_eq _).blaming.bind fun present => ?_
    split
    · exact onFiles_pure _
    · exact ih

theorem onFiles_fetch (libraries : List Path) (context : Path) (inner : Text) :
    (fetch libraries context inner).OnFiles := by
  unfold fetch
  dsimp only
  split
  · exact onFiles_throw _
  · refine (onFiles_findLibrary? _ libraries).blaming.bind fun library? => ?_
    split
    · exact onFiles_throw _
    · exact (TreeCopy.onFiles_copy _ _).blaming.bind fun _ => onFiles_note _

theorem onFiles_resolveFiles (template : Text) (libraries : List Path) (context : Path) :
    (resolveFiles template libraries context).OnFiles := by
  rw [resolveFiles_eq]
  exact (OnFiles.forM fun inner _ => onFiles_fetch libraries context inner).bind
    fun _ => onFiles_pure _

theorem onFiles_resolveVariables (template : Text) (table : VariableTable) :
    (resolveVariables template table).OnFiles := by
  refine OnFiles.bind (OnFiles.foldlM (fun replacements inner _ => ?_) _) fun _ => onFiles_pure _
  split
  · exact onFiles_throw _
  · exact (onFiles_note _).bind fun _ => onFiles_pure _

end Template

namespace VariableSource

theorem onFiles_existsAt (path : Path) : (existsAt path).OnFiles :=
  (onFiles_look fun _ _ same => same.exists?_eq path).blaming

theorem onFiles_readFlat (path : Path) : (readFlat path).OnFiles := by
  refine (onFiles_existsAt path).bind fun present => ?_
  split
  · exact (onFiles_look fun _ _ same => same.readText_eq path).blaming.bind fun _ => onFiles_pure _
  · exact onFiles_pure _

theorem onFiles_readFragment (directory : Path) (name : Name) :
    (readFragment directory name).OnFiles := by
  refine (onFiles_look fun _ _ same => same.examine_eq _).blaming.bind fun entry => ?_
  split
  · split
    · exact onFiles_throw _
    · split
      · exact onFiles_pure _
      · exact (onFiles_look fun _ _ same => same.readText_eq _).blaming.bind fun _ =>
          onFiles_pure _
  · exact (onFiles_note _).bind fun _ => onFiles_pure _

theorem onFiles_readListing (directory : Path) (listing : List Name) :
    (readListing directory listing).OnFiles := by
  refine OnFiles.foldlM (fun table name _ => ?_) _
  refine (onFiles_readFragment directory name).bind fun fragment => ?_
  split <;> exact onFiles_pure _

theorem onFiles_readFragments (path : Path) : (readFragments path).OnFiles := by
  refine (onFiles_existsAt path).bind fun present => ?_
  split
  · refine onFiles_list (fun listing listing' perm => ?_) fun listing => ?_
    · rw [readListing, readListing, Name.mergeSort_eq_of_perm perm]
    · exact (onFiles_readListing path listing).bind fun _ => onFiles_pure _
  · exact onFiles_pure _

theorem onFiles_mergeEach {readTable : Path → Action VariableFault (Option VariableTable)}
    (reads : ∀ path, (readTable path).OnFiles) (entry message : String) (roots : List Path)
    (table : VariableTable) : (mergeEach entry message readTable roots table).OnFiles := by
  refine OnFiles.foldlM (fun merged root _ => ?_) _
  refine (reads _).bind fun more => ?_
  split
  · exact (onFiles_note _).bind fun _ => onFiles_pure _
  · exact onFiles_pure _

theorem onFiles_aggregate (source : Path) (libraries : List Path) :
    (aggregate source libraries).OnFiles := by
  unfold aggregate
  refine OnFiles.bind (onFiles_mergeEach onFiles_readFlat _ _ _ _) fun flat => ?_
  exact onFiles_mergeEach onFiles_readFragments _ _ _ _

end VariableSource

namespace Build

theorem onFiles_announce (request : Request) (config : Config) :
    (announce request config).OnFiles := by
  have logs : (do
      Action.note ⟨.building, .info, "source path", [("source", request.source.display)]⟩
      for library in request.libraries do
        Action.note ⟨.building, .info, "library path", [("library", library.display)]⟩ :
        Action Failure Unit).OnFiles := by
    refine (onFiles_note _).bind fun _ => OnFiles.bind ?_ fun _ => onFiles_pure _
    exact OnFiles.forIn (fun library _ => (onFiles_note _).bind fun _ => onFiles_pure _) PUnit.unit
  unfold announce
  cases config.validate with
  | error fault => exact (onFiles_throw _).bind fun _ => logs
  | ok => exact logs

/-- The Dockerfile is written, which storage has a say in. -/
theorem onStorage_publish (context : BuildContext) (withFiles : Text) (table : VariableTable) :
    (publish context withFiles table).OnStorage := by
  refine (Template.onFiles_resolveVariables withFiles table).onStorage.bind fun dockerfile => ?_
  refine (Replacement.onStorage_replace _ _).blaming.bind fun _ => ?_
  exact ((onFiles_note _).bind fun _ => onFiles_pure _).onStorage

theorem onStorage_render (context : BuildContext) (request : Request) :
    (render context request).OnStorage := by
  refine (onFiles_look fun _ _ same => same.readText_eq _).blaming.onStorage.bind
    fun template => ?_
  refine (Template.onFiles_resolveFiles _ _ _).onStorage.bind fun withFiles => ?_
  refine (VariableSource.onFiles_aggregate _ _).blaming.onStorage.bind fun table => ?_
  dsimp only
  split
  · exact (onFiles_note _).onStorage.bind fun _ => onStorage_publish context withFiles table
  · exact onStorage_publish context withFiles table

theorem onStorage_renderTemplate (context : BuildContext) (request : Request) :
    (renderTemplate context request).OnStorage := by
  unfold renderTemplate
  split
  · exact (onStorage_render context request).bind fun _ => (onFiles_pure _).onStorage
  · exact (onFiles_pure _).onStorage

theorem onFiles_finalize (context : BuildContext) : (finalize context).OnFiles := by
  refine (onFiles_edit fun _ _ same => same.removeFile_eq _).attempt.bind fun removed => ?_
  split
  · exact onFiles_note _
  · exact onFiles_pure _
  · exact onFiles_throw _

end Build

end ImageStaging
