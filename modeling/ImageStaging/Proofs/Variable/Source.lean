import ImageStaging.Proofs.Action
import ImageStaging.Variable.Source

/-!
# Reading variables

Collecting the variables of a source and its libraries looks at files and changes none, whether it
succeeds or not.
-/

namespace ImageStaging.VariableSource

open ImageStaging.Action (Keeps keeps_look keeps_note keeps_pure keeps_throw)

variable {property : FileSystem → Prop}

theorem existsAt_keeps (path : Path) : (existsAt path).Keeps property :=
  (keeps_look _).blaming

theorem readFlat_keeps (path : Path) : (readFlat path).Keeps property := by
  refine (existsAt_keeps path).bind fun present => ?_
  split
  · exact (keeps_look _).blaming.bind fun _ => keeps_pure _
  · exact keeps_pure _

theorem readFragment_keeps (directory : Path) (name : Name) :
    (readFragment directory name).Keeps property := by
  refine (keeps_look _).blaming.bind fun entry => ?_
  split
  · split
    · exact keeps_throw _
    · split
      · exact keeps_pure _
      · exact (keeps_look _).blaming.bind fun _ => keeps_pure _
  · exact (keeps_note _).bind fun _ => keeps_pure _

theorem readListing_keeps (directory : Path) (listing : List Name) :
    (readListing directory listing).Keeps property := by
  refine Keeps.foldlM fun table name _ => ?_
  refine (readFragment_keeps directory name).bind fun fragment => ?_
  split <;> exact keeps_pure _

theorem readFragments_keeps (path : Path) : (readFragments path).Keeps property := by
  refine (existsAt_keeps path).bind fun present => ?_
  split
  · refine (keeps_look _).blaming.bind fun listing => ?_
    exact (readListing_keeps path listing).bind fun _ => keeps_pure _
  · exact keeps_pure _

theorem mergeEach_keeps {readTable : Path → Action VariableFault (Option VariableTable)}
    (reads : ∀ path, (readTable path).Keeps property) (entry message : String) (roots : List Path)
    (table : VariableTable) : (mergeEach entry message readTable roots table).Keeps property := by
  refine Keeps.foldlM fun merged root _ => ?_
  refine (reads _).bind fun more => ?_
  split
  · exact (keeps_note _).bind fun _ => keeps_pure _
  · exact keeps_pure _

/-- Collecting variables leaves the files alone. -/
theorem aggregate_keeps (source : Path) (libraries : List Path) :
    (aggregate source libraries).Keeps property := by
  unfold aggregate
  refine Keeps.bind (mergeEach_keeps readFlat_keeps _ _ _ _) fun flat => ?_
  exact mergeEach_keeps readFragments_keeps _ _ _ _

end ImageStaging.VariableSource
