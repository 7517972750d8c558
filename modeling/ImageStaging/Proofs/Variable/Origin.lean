import ImageStaging.Proofs.Dependence.Build

/-!
# The order in which variables are read

The sources of variables are read one after the other: all flat files, that of the image source
before those of the libraries, and then all fragment directories in the same order. Collecting the
variables fails with the fault of the first one that cannot be read, and only so.
-/

namespace ImageStaging.VariableSource

open ImageStaging.Action (Ends)

variable {world : World} {files : FileSystem}

/-- A file or a directory that variables are read from. -/
inductive Origin
  | flat (root : Path)
  | fragments (root : Path)

def Origin.read : Origin → Action VariableFault (Option VariableTable)
  | .flat root => readFlat (root.join (Path.ofString Layout.variablesFile))
  | .fragments root => readFragments (root.join (Path.ofString Layout.variablesDirectory))

/-- All of them in the order of reading. -/
def origins (source : Path) (libraries : List Path) : List Origin :=
  (source :: libraries).map .flat ++ (source :: libraries).map .fragments

/-- Why one of them cannot be read among some files, if it cannot. -/
def Origin.fault? (files : FileSystem) (origin : Origin) : Option VariableFault :=
  match origin.read.answer files with
  | .ok _ => none
  | .error fault => some fault

/-- Why the first of them cannot be read that cannot be. -/
def firstFault? (files : FileSystem) (source : Path) (libraries : List Path) :
    Option VariableFault :=
  (origins source libraries).findSome? (Origin.fault? files)

theorem Origin.read_onFiles (origin : Origin) : origin.read.OnFiles := by
  cases origin with
  | flat root => exact onFiles_readFlat _
  | fragments root => exact onFiles_readFragments _

theorem Origin.read_keeps {property : FileSystem → Prop} (origin : Origin) :
    origin.read.Keeps property := by
  cases origin with
  | flat root => exact readFlat_keeps _
  | fragments root => exact readFragments_keeps _

theorem Origin.read_ends (origin : Origin) (same : world.files = files) :
    origin.read.Ends world
      (fun _ after => after.files = files ∧ origin.fault? files = none)
      (fun fault after => after.files = files ∧ origin.fault? files = some fault) := by
  subst same
  have given := origin.read_onFiles.fst_run world
  refine ((Action.ends_run _).and (origin.read_keeps world rfl)).mono ?_ ?_
  · rintro found after ⟨run, same⟩
    rw [run] at given
    exact ⟨same.symm, by rw [fault?, ← given]⟩
  · rintro fault after ⟨run, same⟩
    rw [run] at given
    exact ⟨same.symm, by rw [fault?, ← given]⟩

/-- One kind of source is read for each root up to the first that cannot be read. -/
theorem mergeEach_stops {readTable : Path → Action VariableFault (Option VariableTable)}
    (entry message : String) (kind : Path → Origin)
    (reads : ∀ root, readTable (root.join (Path.ofString entry)) = (kind root).read)
    (roots : List Path) (table : VariableTable) (same : world.files = files) :
    (mergeEach entry message readTable roots table).Ends world
      (fun _ after => after.files = files ∧
        (roots.map kind).findSome? (Origin.fault? files) = none)
      (fun fault after => after.files = files ∧
        (roots.map kind).findSome? (Origin.fault? files) = some fault) := by
  rw [mergeEach]
  refine Ends.foldlM_split (fun seen _ after => after.files = files ∧
    (seen.map kind).findSome? (Origin.fault? files) = none) ⟨same, rfl⟩ ?_
  rintro before root rest rfl merged after ⟨same, readable⟩
  dsimp only
  rw [reads root, Action.ends_bind]
  refine ((kind root).read_ends same).mono ?_ ?_
  · rintro found later ⟨same, faultless⟩
    have readableHere : ((before ++ [root]).map kind).findSome? (Origin.fault? files) = none := by
      simp [readable, faultless]
    cases found with
    | none => exact ⟨same, readableHere⟩
    | some more => exact ⟨same, readableHere⟩
  · rintro fault later ⟨same, faulty⟩
    exact ⟨same, by simp [readable, faulty]⟩

/-- Collecting variables fails exactly if a source cannot be read, with the fault of the first. -/
theorem aggregate_stops (source : Path) (libraries : List Path) (same : world.files = files) :
    (aggregate source libraries).Ends world
      (fun _ after => after.files = files ∧ firstFault? files source libraries = none)
      (fun fault after => after.files = files ∧
        firstFault? files source libraries = some fault) := by
  unfold firstFault? origins
  rw [aggregate, Action.ends_bind, List.findSome?_append]
  refine (mergeEach_stops Layout.variablesFile "read variables file" .flat (fun _ => rfl)
    (source :: libraries) .empty same).mono ?_ ?_
  · rintro table after ⟨same, readable⟩
    rw [readable, Option.none_or]
    exact mergeEach_stops Layout.variablesDirectory "read variable fragments" .fragments
      (fun _ => rfl) (source :: libraries) table same
  · rintro fault after ⟨same, faulty⟩
    exact ⟨same, by rw [faulty, Option.some_or]⟩

end ImageStaging.VariableSource
