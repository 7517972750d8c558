import ImageStaging.Association
import ImageStaging.Text.Basic

/-!
# Variable tables

A table holds one value for each of its names. Names and values are trimmed on their way in, so a
name is looked up as it stands.
-/

namespace ImageStaging

structure VariableTable where
  entries : List (Text × Text) := []
  deriving DecidableEq, Repr

namespace VariableTable

def empty : VariableTable := {}

/-- The table in which a name has a value, whatever it had before. -/
def set (table : VariableTable) (name value : Text) : VariableTable :=
  ⟨Association.put table.entries name value⟩

def insert (table : VariableTable) (name value : Text) : VariableTable :=
  table.set (Text.trim name) (Text.trim value)

def get? (table : VariableTable) (name : Text) : Option Text :=
  table.entries.lookup name

def size (table : VariableTable) : Nat :=
  table.entries.length

def isEmpty (table : VariableTable) : Bool :=
  table.entries.isEmpty

/-- The first table with the entries of the second put over it. -/
def merge (table other : VariableTable) : VariableTable :=
  other.entries.foldr (fun entry merged => merged.set entry.1 entry.2) table

def ofList (pairs : List (Text × Text)) : VariableTable :=
  pairs.foldl (fun table pair => table.insert pair.1 pair.2) empty

theorem get?_set (table : VariableTable) (name value other : Text) :
    (table.set name value).get? other = if other = name then some value else table.get? other :=
  Association.lookup_put table.entries name value other

theorem get?_insert (table : VariableTable) (name value other : Text) :
    (table.insert name value).get? other =
      if other = Text.trim name then some (Text.trim value) else table.get? other :=
  get?_set table _ _ other

theorem get?_merge (table other : VariableTable) (name : Text) :
    (table.merge other).get? name = (other.get? name).or (table.get? name) := by
  obtain ⟨entries⟩ := other
  induction entries with
  | nil => rfl
  | cons entry rest ih =>
    obtain ⟨key, value⟩ := entry
    have hStep : table.merge ⟨(key, value) :: rest⟩ = (table.merge ⟨rest⟩).set key value := rfl
    rw [hStep, get?_set, ih]
    by_cases hName : name = key
    · simp [get?, hName]
    · have hBeq : (name == key) = false := by simp [hName]
      simp [get?, List.lookup_cons, hName, hBeq]

end VariableTable

/-- The table of a flat file: `NAME: value` on each line, a later line overriding an earlier one.
Lines with no colon or no name say nothing. -/
def VariableTable.parseFlat (content : Text) : VariableTable :=
  ofList <| (Text.fields '\n' (Text.trim content)).filterMap fun line =>
    match Text.splitFirst ':' (Text.trim line) with
    | some (name, value) => if Text.trim name = [] then none else some (name, value)
    | none => none

end ImageStaging
