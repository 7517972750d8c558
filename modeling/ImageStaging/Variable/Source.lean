import ImageStaging.Failure
import ImageStaging.Layout
import ImageStaging.Variable.Table
import ImageStaging.World

/-!
# Where variables come from

The source directory and each library may hold a flat file and a directory of fragments, one file
for each variable. All flat files come before all fragments, and the source before the libraries
in their order; what comes later overrides what came before.
-/

namespace ImageStaging.VariableSource

def existsAt (path : Path) : Action VariableFault Bool :=
  (Action.look (·.exists? path)).blaming (.unreadable path)

/-- The table of a flat file, if the file is there. -/
def readFlat (path : Path) : Action VariableFault (Option VariableTable) := do
  if ← existsAt path then
    let content ← (Action.look (·.readText path)).blaming (.unreadable path)
    pure (some (.parseFlat content))
  else
    pure none

/-- The variable of one entry of a fragment directory. An entry that is no regular file defines
none, and neither does one whose name is blank. -/
def readFragment (directory : Path) (name : Name) :
    Action VariableFault (Option (Text × Text)) := do
  let path := directory.join name.toPath
  let entry ← (Action.look (·.examine path)).blaming (.unreadable path)
  if entry.isFile then
    match Utf8.decode? name.bytes with
    | none => throw (.nameNotText path)
    | some text =>
      if Text.trim text = [] then
        pure none
      else
        let content ← (Action.look (·.readText path)).blaming (.unreadable path)
        pure (some (text, content))
  else
    Action.note ⟨.variables, .debug, "skipping non-file fragment entry", [("path", path.display)]⟩
    pure none

/-- The table of a listing of fragments, read in the order of their names. -/
def readListing (directory : Path) (listing : List Name) : Action VariableFault VariableTable :=
  (listing.mergeSort Name.le).foldlM (fun table name => do
    match ← readFragment directory name with
    | some (text, content) => pure (table.insert text content)
    | none => pure table) .empty

/-- The table of a fragment directory, if the directory is there. -/
def readFragments (path : Path) : Action VariableFault (Option VariableTable) := do
  if ← existsAt path then
    let listing ← (Action.look (·.list path)).blaming (.unreadable path)
    pure (some (← readListing path listing))
  else
    pure none

/-- Puts the tables of one kind of source, for each root in order, over a table. -/
def mergeEach (entry : String) (message : String)
    (readTable : Path → Action VariableFault (Option VariableTable))
    (roots : List Path) (table : VariableTable) : Action VariableFault VariableTable :=
  roots.foldlM (fun merged root => do
    let path := root.join (Path.ofString entry)
    match ← readTable path with
    | some more =>
      let fields := [("path", path.display), ("count", toString more.size)]
      Action.note ⟨.variables, .debug, message, fields⟩
      pure (merged.merge more)
    | none => pure merged) table

/-- The variables of a source directory and its libraries. -/
def aggregate (source : Path) (libraries : List Path) : Action VariableFault VariableTable := do
  let roots := source :: libraries
  let flat ← mergeEach Layout.variablesFile "read variables file" readFlat roots .empty
  mergeEach Layout.variablesDirectory "read variable fragments" readFragments roots flat

end ImageStaging.VariableSource
