import ImageStaging.Association
import ImageStaging.Path.Basic

/-!
# File systems

A location is the list of names that leads from the root to an entry. A file system is a finite
list of located entries, each at most once and each in a directory, so no entry can outlive the
directory that holds it. It changes in two ways only: an entry is placed, or an entry is taken
away with everything below it. `get?_place` and `get?_prune` say what the two do to the view
`get?`, and every later statement about a changed file system comes from them.
-/

namespace ImageStaging

/-- A name that an entry can have in its directory. -/
def Name.Valid (bytes : Bytes) : Prop :=
  bytes ≠ [] ∧ bytes.length ≤ 255 ∧ Path.slash ∉ bytes ∧ (0 : UInt8) ∉ bytes ∧
    bytes ≠ [Path.dot] ∧ bytes ≠ [Path.dot, Path.dot]

instance (bytes : Bytes) : Decidable (Name.Valid bytes) :=
  inferInstanceAs (Decidable (_ ∧ _))

structure Name where
  bytes : Bytes
  valid : Name.Valid bytes
  deriving DecidableEq

namespace Name

def ofBytes? (bytes : Bytes) : Option Name :=
  if valid : Valid bytes then some ⟨bytes, valid⟩ else none

theorem ofBytes?_bytes (name : Name) : ofBytes? name.bytes = some name := by
  simp [ofBytes?, name.valid]

def toPath (name : Name) : Path :=
  ⟨name.bytes⟩

/-- The order of names by their bytes. -/
def le (first second : Name) : Bool :=
  decide (first.bytes ≤ second.bytes)

end Name

abbrev Location := List Name

/-- A device that is always full answers every write with an error. -/
inductive Entry
  | directory
  | file (content : Bytes) (executable : Bool)
  | link (target : Path)
  | fullDevice
  deriving DecidableEq

def Entry.isFile : Entry → Bool
  | .file _ _ => true
  | _ => false

namespace FileSystem

/-- The entry at a location of a list of located entries, the root being a directory. -/
def find (entries : List (Location × Entry)) (location : Location) : Option Entry :=
  if location = [] then some .directory else entries.lookup location

def Rooted (entries : List (Location × Entry)) : Prop :=
  ∀ item ∈ entries, item.1 ≠ [] ∧ find entries item.1.dropLast = some .directory

end FileSystem

structure FileSystem where
  entries : List (Location × Entry) := []
  /-- Where a path that is not absolute starts. -/
  workingDirectory : Location := []
  distinct : (entries.map Prod.fst).Nodup := by simp
  rooted : FileSystem.Rooted entries := by simp [FileSystem.Rooted]

namespace FileSystem

def empty : FileSystem := {}

/-- A file system with nothing in it, and the place where relative paths start. -/
def emptyAt (workingDirectory : Location) : FileSystem :=
  { empty with workingDirectory }

def get? (files : FileSystem) (location : Location) : Option Entry :=
  find files.entries location

@[simp] theorem get?_root (files : FileSystem) : files.get? [] = some .directory := by
  simp [get?, find]

theorem get?_parent_of_isSome {files : FileSystem} {location : Location} (hRoot : location ≠ [])
    (h : (files.get? location).isSome) :
    files.get? location.dropLast = some .directory := by
  simp only [get?, find, if_neg hRoot] at h
  obtain ⟨entry, hEntry⟩ := Option.isSome_iff_exists.1 h
  obtain ⟨front, back, hSplit, _⟩ := List.lookup_eq_some_iff.1 hEntry
  have hMem : (location, entry) ∈ files.entries :=
    hSplit ▸ List.mem_append_right front List.mem_cons_self
  exact (files.rooted (location, entry) hMem).2

/-- The names in a directory, in no order that matters. -/
def children (files : FileSystem) (directory : Location) : List Name :=
  files.entries.filterMap fun item =>
    if item.1.dropLast = directory then item.1.getLast? else none

/-- An entry can be placed in a directory, where no directory stands already. -/
def Accepts (files : FileSystem) (location : Location) : Prop :=
  location ≠ [] ∧ files.get? location.dropLast = some .directory ∧
    files.get? location ≠ some .directory

instance (files : FileSystem) (location : Location) : Decidable (files.Accepts location) :=
  inferInstanceAs (Decidable (_ ∧ _))

theorem find_put {entries : List (Location × Entry)} {location : Location} (entry : Entry)
    (hRoot : location ≠ []) (other : Location) :
    find (Association.put entries location entry) other =
      if other = location then some entry else find entries other := by
  by_cases hOther : other = []
  · subst hOther
    simp [find, Ne.symm hRoot]
  · simp only [find, if_neg hOther, Association.lookup_put]

theorem dropLast_ne_self {location : Location} (h : location ≠ []) :
    location.dropLast ≠ location := by
  intro hEq
  have hLength := congrArg List.length hEq
  have hPositive := List.length_pos_iff.2 h
  rw [List.length_dropLast] at hLength
  omega

/-- The file system with an entry put at a location that accepts one. -/
def place (files : FileSystem) (location : Location) (entry : Entry) : FileSystem :=
  if accepts : files.Accepts location then
    { files with
      entries := Association.put files.entries location entry
      distinct := Association.nodup_put files.distinct location entry
      rooted := by
        intro item hItem
        simp only [Association.put, List.mem_cons, List.mem_filter, decide_eq_true_eq] at hItem
        rcases hItem with rfl | ⟨hItem, hOther⟩
        · refine ⟨accepts.1, ?_⟩
          rw [find_put entry accepts.1, if_neg (dropLast_ne_self accepts.1)]
          exact accepts.2.1
        · obtain ⟨hRoot, hParent⟩ := files.rooted item hItem
          refine ⟨hRoot, ?_⟩
          rw [find_put entry accepts.1, if_neg]
          · exact hParent
          · intro hEq
            exact accepts.2.2 (hEq ▸ hParent) }
  else files

theorem get?_place (files : FileSystem) (location : Location) (entry : Entry)
    (other : Location) :
    (files.place location entry).get? other =
      if files.Accepts location ∧ other = location then some entry else files.get? other := by
  by_cases hAccepts : files.Accepts location
  · unfold place
    rw [dif_pos hAccepts]
    simp only [get?, find_put entry hAccepts.1, hAccepts, true_and]
  · simp [place, hAccepts]

/-- The file system without the entry at a location and all that is below it. The root stays. -/
def prune (files : FileSystem) (location : Location) : FileSystem :=
  if hRoot : location = [] then files
  else
    { files with
      entries := files.entries.filter fun item => !location.isPrefixOf item.1
      distinct := files.distinct.sublist (List.filter_sublist.map Prod.fst)
      rooted := by
        intro item hItem
        rw [List.mem_filter] at hItem
        obtain ⟨hItem, hOutside⟩ := hItem
        obtain ⟨hItemRoot, hParent⟩ := files.rooted item hItem
        refine ⟨hItemRoot, ?_⟩
        have hOutsideParent : location.isPrefixOf item.1.dropLast = false := by
          rw [Bool.not_eq_true', ← Bool.not_eq_true, List.isPrefixOf_iff_prefix] at hOutside
          rw [← Bool.not_eq_true, List.isPrefixOf_iff_prefix]
          exact fun h => hOutside (h.trans (List.dropLast_prefix item.1))
        unfold find at hParent ⊢
        split
        · rfl
        · next hParentRoot =>
          rw [Association.lookup_filter (fun key => !location.isPrefixOf key)]
          simpa [hOutsideParent, hParentRoot] using hParent }

theorem get?_prune {files : FileSystem} {location : Location} (hRoot : location ≠ [])
    (other : Location) :
    (files.prune location).get? other =
      if location <+: other then none else files.get? other := by
  unfold prune
  rw [dif_neg hRoot]
  simp only [get?, find]
  by_cases hOther : other = []
  · subst hOther
    have : ¬ location <+: [] := fun h => hRoot (List.prefix_nil.1 h)
    simp [this]
  · rw [if_neg hOther, if_neg hOther,
      Association.lookup_filter (fun key => !location.isPrefixOf key)]
    by_cases hPrefix : location <+: other
    · simp [hPrefix, List.isPrefixOf_iff_prefix.2 hPrefix]
    · have : location.isPrefixOf other = false := by
        rw [← Bool.not_eq_true, List.isPrefixOf_iff_prefix]
        exact hPrefix
      simp [hPrefix, this]

@[simp] theorem workingDirectory_place (files : FileSystem) (location : Location) (entry : Entry) :
    (files.place location entry).workingDirectory = files.workingDirectory := by
  unfold place
  split <;> rfl

@[simp] theorem workingDirectory_prune (files : FileSystem) (location : Location) :
    (files.prune location).workingDirectory = files.workingDirectory := by
  unfold prune
  split <;> rfl

end FileSystem

end ImageStaging
