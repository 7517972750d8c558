import ImageStaging.FileSystem.Change
import ImageStaging.Proofs.FileSystem.NameOrder
import ImageStaging.Proofs.FileSystem.Trail
import ImageStaging.Proofs.FileSystem.Tree

/-!
# File systems with the same entries

Two file systems may list their entries in different orders and still hold the same ones. They
answer every question alike, except that a directory may be listed in another order, and they stay
the same when the same change is made to both.
-/

namespace ImageStaging.FileSystem

/-- The same entries stand at the same locations. -/
structure Same (files other : FileSystem) : Prop where
  workingDirectory : other.workingDirectory = files.workingDirectory
  get? : ∀ location, other.get? location = files.get? location

/-- A question that file systems with the same entries answer alike. -/
def Respects {α : Type} (question : FileSystem → α) : Prop :=
  ∀ files other, Same files other → question other = question files

/-- A location is listed once only, so a child is. -/
theorem children_nodup (files : FileSystem) (directory : Location) :
    (files.children directory).Nodup := by
  have distinct := files.distinct
  unfold children
  generalize files.entries = entries at distinct ⊢
  induction entries with
  | nil => exact List.nodup_nil
  | cons item rest ih =>
    rw [List.map_cons, List.nodup_cons] at distinct
    obtain ⟨fresh, distinct⟩ := distinct
    rw [List.filterMap_cons]
    split
    · exact ih distinct
    · rename_i name picked
      rw [List.nodup_cons]
      refine ⟨fun again => fresh ?_, ih distinct⟩
      obtain ⟨item', member, picked'⟩ := List.mem_filterMap.1 again
      obtain ⟨inside, last⟩ := Option.ite_none_right_eq_some.1 picked
      obtain ⟨inside', last'⟩ := Option.ite_none_right_eq_some.1 picked'
      have here : item.1 = item'.1 := by
        rw [← List.dropLast_append_getLast? name last, ← List.dropLast_append_getLast? name last',
          inside, inside']
      rw [here]
      exact List.mem_map_of_mem member

namespace Same

variable {files other third : FileSystem}

theorem refl (files : FileSystem) : Same files files :=
  ⟨rfl, fun _ => rfl⟩

theorem symm (same : Same files other) : Same other files :=
  ⟨same.workingDirectory.symm, fun location => (same.get? location).symm⟩

theorem trans (first : Same files other) (second : Same other third) : Same files third :=
  ⟨second.workingDirectory.trans first.workingDirectory,
    fun location => (second.get? location).trans (first.get? location)⟩

theorem children_perm (same : Same files other) (directory : Location) :
    (files.children directory).Perm (other.children directory) := by
  rw [List.perm_ext_iff_of_nodup (children_nodup _ _) (children_nodup _ _)]
  intro name
  rw [mem_children, mem_children, same.get?]

/-! ## Questions -/

variable (same : Same files other)
include same

theorem resolve_eq (purpose : Purpose) (path : Path) :
    other.resolve purpose path = files.resolve purpose path :=
  resolve_congr same.workingDirectory fun location _ => sameKind_of_eq (same.get? location)

theorem locate_eq (purpose : Purpose) (path : Path) :
    other.locate purpose path = files.locate purpose path := by
  rw [locate, locate, same.resolve_eq]

theorem examine_eq (path : Path) : other.examine path = files.examine path := by
  simp only [examine, same.locate_eq, same.get?]

theorem examineLink_eq (path : Path) : other.examineLink path = files.examineLink path := by
  simp only [examineLink, same.locate_eq, same.get?]

theorem exists?_eq (path : Path) : other.exists? path = files.exists? path := by
  rw [exists?, exists?, same.examine_eq]

theorem isDirectory_eq (path : Path) : other.isDirectory path = files.isDirectory path := by
  rw [isDirectory, isDirectory, same.examine_eq]

theorem read_eq (path : Path) : other.read path = files.read path := by
  rw [read, read, same.examine_eq]

theorem readText_eq (path : Path) : other.readText path = files.readText path := by
  rw [readText, readText, same.read_eq]

theorem readForDisplay_eq (path : Path) :
    other.readForDisplay path = files.readForDisplay path := by
  rw [readForDisplay, readForDisplay, same.read_eq]

/-- Listings hold the same names, in whatever order. -/
theorem list_perm (path : Path) :
    (∃ fault, files.list path = .error fault ∧ other.list path = .error fault) ∨
      ∃ listing listing', files.list path = .ok listing ∧ other.list path = .ok listing' ∧
        listing.Perm listing' := by
  simp only [list, same.locate_eq]
  cases located : files.locate .target path with
  | error fault => exact .inl ⟨fault, rfl, rfl⟩
  | ok location =>
    simp only [bind, Except.bind, same.get?]
    split
    · exact .inr ⟨_, _, rfl, rfl, same.children_perm location⟩
    · exact .inl ⟨_, rfl, rfl⟩
    · exact .inl ⟨_, rfl, rfl⟩

theorem lastStep_eq (path : Path) : other.lastStep path = files.lastStep path := by
  have travels : ∀ steps, travel other linkLimit ⟨other.startOf path, steps, .target, true⟩ =
      travel files linkLimit ⟨files.startOf path, steps, .target, true⟩ := by
    intro steps
    rw [startOf_congr same.workingDirectory,
      travel_congr fun location _ => sameKind_of_eq (same.get? location)]
  simp only [lastStep, travels, same.get?]

/-! ## Requests and changes -/

theorem makeDirectory_eq (path : Path) : makeDirectory path other = makeDirectory path files := by
  simp only [makeDirectory, same.lastStep_eq, same.get?]

theorem removeFile_eq (path : Path) : removeFile path other = removeFile path files := by
  simp only [removeFile, same.lastStep_eq, same.get?]

theorem removeDirectory_eq (path : Path) :
    removeDirectory path other = removeDirectory path files := by
  have empty : ∀ location,
      (other.children location).isEmpty = (files.children location).isEmpty :=
    fun location => (same.children_perm location).symm.isEmpty_eq
  simp only [removeDirectory, same.lastStep_eq, same.get?, empty]

theorem writable_eq (path : Path) : other.writable path = files.writable path := by
  simp only [writable, same.resolve_eq, same.get?]

theorem rename_eq (source target : Path) :
    rename source target other = rename source target files := by
  simp only [rename, same.lastStep_eq, same.get?]

theorem place (location : Location) (entry : Entry) :
    Same (files.place location entry) (other.place location entry) := by
  have accepts : other.Accepts location ↔ files.Accepts location := by
    simp only [Accepts, same.get?]
  refine ⟨by simp [same.workingDirectory], fun place => ?_⟩
  simp only [get?_place, accepts, same.get?]

theorem prune (location : Location) : Same (files.prune location) (other.prune location) := by
  refine ⟨by simp [same.workingDirectory], fun place => ?_⟩
  by_cases atRoot : location = []
  · rw [FileSystem.prune, FileSystem.prune, dif_pos atRoot, dif_pos atRoot]
    exact same.get? place
  · simp only [get?_prune atRoot, same.get?]

theorem apply (step : Change) : Same (files.apply step) (other.apply step) := by
  cases step with
  | place location entry => exact same.place location entry
  | remove location => exact same.prune location
  | move source target =>
    simp only [FileSystem.apply, same.get?]
    split
    · exact (same.prune source).place target _
    · exact same

end Same

end ImageStaging.FileSystem
