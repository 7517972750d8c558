import ImageStaging.Proofs.Dependence.Build
import ImageStaging.Proofs.Variable.Precedence

/-!
# The order in which a directory is listed

A directory may list its fragments in any order. They are read in the order of their names, so the
table that they come to, or the fault that stops the reading, does not depend on it: the table gives
a variable what the greatest fragment of that name says, and the fault is that of the smallest entry
that has one. An entry with a blank name is not read.
-/

namespace ImageStaging.VariableSource

open ImageStaging.Action (Ends ends_bind)

variable {directory : Path} {world : World}

/-- The order in which a directory is listed is not seen in what is read. -/
theorem readListing_of_perm {listing order : List Name} (perm : listing.Perm order) :
    readListing directory order = readListing directory listing := by
  rw [readListing, readListing, Name.mergeSort_eq_of_perm perm]

theorem run_readFragments {listing : List Name} (listed : world.files.list directory = .ok listing) :
    (readFragments directory).run.run world =
      (some <$> readListing directory listing).run.run world := by
  obtain ⟨location, located, isDirectory, -⟩ := FileSystem.list_ok listed
  have present : world.files.exists? directory = .ok true := by
    refine FileSystem.exists?_eq_ok_true_iff.2 ⟨.directory, ?_⟩
    rw [FileSystem.examine, located]
    simp only [bind, Except.bind, isDirectory]
    rfl
  have asked : (existsAt directory).run.run world = (.ok true, world) := by
    rw [existsAt, Action.run_blaming, Action.run_look, present]
  have lists : ((Action.look (·.list directory)).blaming
      (VariableFault.unreadable directory)).run.run world = (.ok listing, world) := by
    rw [Action.run_blaming, Action.run_look, listed]
  rw [readFragments, Action.run_bind_of_ok asked, if_pos rfl, Action.run_bind_of_ok lists,
    map_eq_pure_bind]

/-- However a directory lists its entries, reading its fragments gives the same table or stops with
the same fault, also for another file system with the same entries in another order. If no entry
stops the reading, the table gives each name that is not empty the value of the greatest fragment
that it names; otherwise the fault is that of the smallest entry that stops it. -/
theorem readFragments_in_any_order {listing : List Name}
    (listed : world.files.list directory = .ok listing) :
    (∀ order, listing.Perm order → (readFragments directory).run.run world =
      (some <$> readListing directory order).run.run world) ∧
    (∀ other : World, world.files.Same other.files →
      ((readFragments directory).run.run other).1 =
        ((readFragments directory).run.run world).1) ∧
    (readFragments directory).Ends world
      (fun table? after => after.files = world.files ∧
        (∀ entry ∈ listing, ∀ fault, ¬ Stops world.files directory entry fault) ∧
        ∃ table, table? = some table ∧ Answers table (FragmentsDefine world.files directory))
      (fun fault after => after.files = world.files ∧
        FirstStop world.files directory listing fault) := by
  refine ⟨fun order perm => ?_, fun other same => ?_, ?_⟩
  · rw [run_readFragments listed, readListing_of_perm perm]
  · obtain ⟨result, after, after', run, run', -⟩ := onFiles_readFragments directory world other same
    rw [run, run']
  · unfold Ends
    rw [run_readFragments listed]
    change (some <$> readListing directory listing).Ends world _ _
    rw [map_eq_pure_bind, ends_bind]
    refine (readListing_ends directory listing world).mono ?_ fun _ _ failed => failed
    rintro table after ⟨same, collected, passed⟩
    exact ⟨same, passed, table, rfl, collected.fragmentsDefine listed⟩

/-- Three spellings of one name, a directory, and an entry with a blank name that is no text. -/
def crowdedFiles : FileSystem where
  entries :=
    let fragments := Layout.variablesDirectoryName
    [([fragments], .directory),
      ([fragments, Layout.nameOf "A "], .file (Path.ofString "3").bytes false),
      ([fragments, Layout.blankName], .file [0xFF] false),
      ([fragments, Layout.nameOf "src"], .directory),
      ([fragments, Layout.nameOf " A"], .file (Path.ofString "1").bytes false),
      ([fragments, Layout.fragmentName], .file (Path.ofString "2\n").bytes false)]
  distinct := by decide
  rooted := by
    simp only [FileSystem.Rooted, FileSystem.find]
    decide

theorem readFragments_in_any_order_crowded :
    let directory := Path.ofString "/Dockerfile.variables.d"
    let listing := [Layout.nameOf "A ", Layout.nameOf " ", Layout.nameOf "src", Layout.nameOf " A",
      Layout.nameOf "A"]
    crowdedFiles.list directory = .ok listing ∧
      (∃ table after, (some <$> readListing directory listing.reverse).run.run
          { files := crowdedFiles } = (.ok (some table), after) ∧ table.get? ['A'] = some ['3']) ∧
      FragmentsDefine crowdedFiles directory ['A'] ['3'] ∧
      ∀ fault, ¬ Stops crowdedFiles directory (Layout.nameOf " ") fault := by
  intro directory listing
  have listed : crowdedFiles.list directory = .ok listing := by decide
  have sorted : listing.mergeSort Name.le = [Layout.nameOf " ", Layout.nameOf " A",
      Layout.nameOf "A", Layout.nameOf "A ", Layout.nameOf "src"] :=
    (Name.mergeSort_eq_of_perm (by decide)).trans (List.mergeSort_of_pairwise (by decide))
  have reads : ((readFragments directory).run.run { files := crowdedFiles }).1.toOption =
      some (some ⟨[(['A'], ['3'])]⟩) := by
    rw [run_readFragments listed, readListing, sorted]
    decide +kernel
  obtain ⟨after, run⟩ := Action.exists_run_of_toOption reads
  obtain ⟨orders, -, ends⟩ :=
    @readFragments_in_any_order directory { files := crowdedFiles } listing listed
  obtain ⟨-, passed, table, same, answers⟩ := ends.of_ok run
  obtain rfl := Option.some.inj same
  have read := (orders listing.reverse (List.reverse_perm listing).symm).symm.trans run
  exact ⟨listed, ⟨_, after, read, rfl⟩, ((answers ['A'] ['3']).1 rfl).2,
    passed (Layout.nameOf " ") (by decide)⟩

end ImageStaging.VariableSource
