import ImageStaging.Proofs.Variable.Normalized
import ImageStaging.Proofs.Variable.Precedence
import ImageStaging.Template.Resolution

/-!
# Tables however they are made

A table may be put together in any way: by naming variables one at a time, from pairs, from the text
of a flat file, from the files of one source or of all of them, and by putting one such table over
another. `Made` tells of each of these ways what the table was given. Each keeps a table normalized,
so a placeholder finds its variable in any table exactly if that variable was given, and an empty
value is told by a look at it.
-/

namespace ImageStaging

namespace VariableSource

open ImageStaging.Action (Ends ends_bind ends_blaming ends_look)
open ImageStaging.VariableTable (ContentGives Distinct Normalized Told normalized_empty
  normalized_parseFlat)

/-! ## What the files give -/

def FileGives (files : FileSystem) (path : Path) (raw text : Text) : Prop :=
  ∃ content, files.readText path = .ok content ∧ ContentGives content raw text

/-- Each file in a directory, links followed, gives its name its content, if the name is not
blank. -/
def DirectoryGives (files : FileSystem) (directory : Path) (raw text : Text) : Prop :=
  ∃ listing, files.list directory = .ok listing ∧ ∃ entry ∈ listing,
    (∃ content executable,
      files.examine (directory.join entry.toPath) = .ok (.file content executable)) ∧
    Utf8.decode? entry.bytes = some raw ∧ Text.trim raw ≠ [] ∧
    files.readText (directory.join entry.toPath) = .ok text

/-- What the flat files and the fragments of some roots give. -/
def RootsGive (files : FileSystem) (roots : List Path) (raw text : Text) : Prop :=
  ∃ root ∈ roots,
    FileGives files (root.join (Path.ofString Layout.variablesFile)) raw text ∨
      DirectoryGives files (root.join (Path.ofString Layout.variablesDirectory)) raw text

variable {files : FileSystem} {name value : Text}

theorem told_directory {directory : Path} {listing : List Name}
    (listed : files.list directory = .ok listing) :
    Told (DirectoryGives files directory) name value ↔
      name ≠ [] ∧ ∃ entry ∈ listing, FragmentGives files directory name entry value := by
  constructor
  · rintro ⟨raw, text, ⟨_, listed', entry, member, isFile, decoded, proper, readable⟩, rfl, rfl⟩
    obtain rfl := Except.ok.inj (listed.symm.trans listed')
    exact ⟨proper, entry, member, ⟨isFile, raw, decoded, rfl⟩, text, readable, rfl⟩
  · rintro ⟨proper, entry, member, ⟨isFile, raw, decoded, rfl⟩, text, readable, rfl⟩
    have given : DirectoryGives files directory raw text :=
      ⟨listing, listed, entry, member, isFile, decoded, proper, readable⟩
    exact VariableTable.told_of_gives given

/-! ## Reading -/

theorem readFlat_normalized (path : Path) {world : World} (same : world.files = files) :
    (readFlat path).Ends world
      (fun table? after => after.files = files ∧
        Normalized (table?.getD .empty) (FileGives files path))
      fun _ _ => True := by
  subst same
  rw [readFlat, ends_bind]
  refine (existsAt_ends path world).mono ?_ fun _ _ _ => trivial
  rintro present after ⟨rfl, asked⟩
  cases present with
  | false =>
    have nothing : ∀ raw text, False ↔ FileGives after.files path raw text := by
      simp [FileGives, readText_of_missing asked]
    exact ⟨rfl, normalized_empty.congr nothing⟩
  | true =>
    simp only [if_true, ends_bind, ends_blaming, ends_look, implies_true, and_true]
    intro content readable
    have all : ∀ raw text, ContentGives content raw text ↔ FileGives after.files path raw text := by
      simp [FileGives, readable]
    exact ⟨rfl, (normalized_parseFlat content).congr all⟩

/-- Reading a listing puts one fragment after the other into a table. -/
theorem readListing_distinct (directory : Path) (listing : List Name) :
    (readListing directory listing).GivesOnly Distinct := by
  intro world
  apply Ends.foldlM (fun _ table _ => Distinct table) VariableTable.distinct_empty
  intro before entry _ table after distinct
  rw [ends_bind]
  apply Ends.of_forall
  · intro fragment? later
    cases fragment? with
    | none => exact distinct
    | some fragment => exact distinct.insert fragment.1 fragment.2
  · intro _ _
    trivial

theorem readFragments_normalized (path : Path) {world : World} (same : world.files = files) :
    (readFragments path).Ends world
      (fun table? after => after.files = files ∧
        Normalized (table?.getD .empty) (DirectoryGives files path))
      fun _ _ => True := by
  subst same
  rw [readFragments, ends_bind]
  refine (existsAt_ends path world).mono ?_ fun _ _ _ => trivial
  rintro present after ⟨rfl, asked⟩
  cases present with
  | false =>
    have nothing : ∀ raw text, False ↔ DirectoryGives after.files path raw text := by
      simp [DirectoryGives, list_of_missing asked]
    exact ⟨rfl, normalized_empty.congr nothing⟩
  | true =>
    simp only [if_true, ends_bind, ends_blaming, ends_look, implies_true, and_true]
    intro listing listed
    refine ((readListing_ends path listing after).and
      (readListing_distinct path listing after)).mono ?_ fun _ _ _ => trivial
    rintro table later ⟨⟨same, collected, -⟩, distinct⟩
    constructor
    · exact same
    · apply Normalized.of_lastGives distinct collected.answers
      intro name value
      simp only [told_directory listed, List.mem_mergeSort]

/-- One kind of source is read for each root, and its table put over the ones before. -/
theorem mergeEach_normalized {readTable : Path → Action VariableFault (Option VariableTable)}
    {gives : Path → Text → Text → Prop}
    (reads : ∀ path world, world.files = files → (readTable path).Ends world
      (fun table? after => after.files = files ∧ Normalized (table?.getD .empty) (gives path))
      fun _ _ => True)
    (entry message : String) (roots : List Path) {table : VariableTable}
    {given : Text → Text → Prop} (normalized : Normalized table given) (world : World)
    (same : world.files = files) :
    (mergeEach entry message readTable roots table).Ends world
      (fun merged after => after.files = files ∧ Normalized merged fun raw text =>
        given raw text ∨ ∃ root ∈ roots, gives (root.join (Path.ofString entry)) raw text)
      fun _ _ => True := by
  rw [mergeEach]
  refine Ends.foldlM (fun (seen : List Path) merged after => after.files = files ∧
    Normalized merged fun raw text =>
      given raw text ∨ ∃ root ∈ seen, gives (root.join (Path.ofString entry)) raw text)
    ⟨same, normalized.congr fun raw text => by simp⟩ ?_
  rintro before root - merged after ⟨kept, soFar⟩
  rw [ends_bind]
  refine (reads (root.join (Path.ofString entry)) after kept).mono ?_ fun _ _ _ => trivial
  rintro table? later ⟨kept, read⟩
  have step : Normalized (merged.merge (table?.getD .empty)) fun raw text => given raw text ∨
      ∃ other ∈ before ++ [root], gives (other.join (Path.ofString entry)) raw text := by
    apply (soFar.merge read).congr
    intro raw text
    simp only [List.mem_append, List.mem_singleton, or_and_right, exists_or, exists_eq_left,
      or_assoc]
  cases table? with
  | none => exact ⟨kept, step⟩
  | some more => exact ⟨kept, step⟩

theorem aggregate_normalized (source : Path) (libraries : List Path) (world : World) :
    (aggregate source libraries).Ends world
      (fun table _ => Normalized table (RootsGive world.files (source :: libraries)))
      fun _ _ => True := by
  rw [aggregate, ends_bind]
  refine (mergeEach_normalized (fun path _ same => readFlat_normalized path same)
    Layout.variablesFile "read variables file" (source :: libraries) normalized_empty
    world rfl).mono ?_ fun _ _ _ => trivial
  rintro flat after ⟨same, normalized⟩
  refine (mergeEach_normalized (fun path _ same => readFragments_normalized path same)
    Layout.variablesDirectory "read variable fragments" (source :: libraries) normalized
    after same).mono ?_ fun _ _ _ => trivial
  rintro table later ⟨-, normalized⟩
  apply normalized.congr
  intro raw text
  simp only [RootsGive, false_or, and_or_left, exists_or]

end VariableSource

namespace VariableTable

open VariableSource (DirectoryGives FileGives RootsGive aggregate aggregate_normalized readFlat
  readFlat_normalized readFragments readFragments_normalized)

/-- A table that is read, with what it was read from: the text of a flat file, a flat file, a
directory of fragments, or all the files of a source and its libraries. -/
inductive Read : VariableTable → (Text → Text → Prop) → Prop
  | content (content : Text) : Read (parseFlat content) (ContentGives content)
  | file {path : Path} {world after : World} {table : VariableTable}
      (run : (readFlat path).run.run world = (.ok (some table), after)) :
      Read table (FileGives world.files path)
  | directory {path : Path} {world after : World} {table : VariableTable}
      (run : (readFragments path).run.run world = (.ok (some table), after)) :
      Read table (DirectoryGives world.files path)
  | roots {source : Path} {libraries : List Path} {world after : World} {table : VariableTable}
      (run : (aggregate source libraries).run.run world = (.ok table, after)) :
      Read table (RootsGive world.files (source :: libraries))

/-- A table that is put together in any way, with all that was given to it on the way. -/
inductive Made : VariableTable → (Text → Text → Prop) → Prop
  | empty : Made empty fun _ _ => False
  | insert {table : VariableTable} {gives : Text → Text → Prop} (made : Made table gives)
      (name value : Text) :
      Made (table.insert name value) fun raw text => gives raw text ∨ raw = name ∧ text = value
  | merge {table other : VariableTable} {gives more : Text → Text → Prop} (made : Made table gives)
      (laid : Made other more) :
      Made (table.merge other) fun raw text => gives raw text ∨ more raw text
  | ofList (pairs : List (Text × Text)) : Made (ofList pairs) fun raw text => (raw, text) ∈ pairs
  | read {table : VariableTable} {gives : Text → Text → Prop} (read : Read table gives) :
      Made table gives

variable {table : VariableTable} {gives : Text → Text → Prop}

theorem Read.normalized (read : Read table gives) : Normalized table gives := by
  cases read with
  | content content => exact normalized_parseFlat content
  | file run => exact ((readFlat_normalized _ rfl).of_ok run).2
  | directory run => exact ((readFragments_normalized _ rfl).of_ok run).2
  | roots run => exact (aggregate_normalized _ _ _).of_ok run

/-- Reading passes over all names that are blank. -/
theorem Read.trim_ne_nil (read : Read table gives) {raw text : Text} (given : gives raw text) :
    Text.trim raw ≠ [] := by
  cases read with
  | content => exact given.2.2
  | file =>
    obtain ⟨content, -, given⟩ := given
    exact given.2.2
  | directory =>
    obtain ⟨listing, -, entry, -, -, -, proper, -⟩ := given
    exact proper
  | roots =>
    obtain ⟨root, -, ⟨content, -, given⟩ | ⟨listing, -, entry, -, -, -, proper, -⟩⟩ := given
    · exact given.2.2
    · exact proper

theorem Made.normalized (made : Made table gives) : Normalized table gives := by
  induction made with
  | empty => exact normalized_empty
  | insert _ name value ih => exact ih.insert name value
  | merge _ _ ih laid => exact ih.merge laid
  | ofList pairs => exact normalized_ofList pairs
  | read read => exact read.normalized

/-- However a table is made, its names and values are trimmed and no name has two entries, and if it
was read then no name is empty. So the inside of a placeholder, trimmed, is found exactly if a name
was given that is the same when it is trimmed, and a value that is nothing but blanks is empty. -/
theorem tables_stay_normalized (made : Made table gives) :
    (∀ entry ∈ table.entries, Text.Trimmed entry.1 ∧ Text.Trimmed entry.2) ∧
    (table.entries.map Prod.fst).Nodup ∧
    (∀ given, Read table given → ∀ entry ∈ table.entries, entry.1 ≠ []) ∧
    (∀ inner, (table.get? (Template.variableName inner)).isSome ↔
      ∃ raw text, gives raw text ∧ Text.trim raw = Text.trim inner) ∧
    (∀ entry ∈ table.entries, entry.2 = [] ↔ Text.trim entry.2 = []) ∧
    ∀ inner, Template.value? table inner =
      (table.get? (Template.variableName inner)).filter fun value => Text.trim value ≠ [] := by
  have normalized := made.normalized
  refine ⟨?_, normalized.distinct, ?_, ?_, ?_, ?_⟩
  · intro entry member
    obtain ⟨name, value⟩ := normalized.trim_of_mem member
    exact ⟨Text.trim_eq_self_iff.1 name, Text.trim_eq_self_iff.1 value⟩
  · intro given read entry member empty
    obtain ⟨raw, text, gave, named, -⟩ := read.normalized.told_of_mem member
    exact read.trim_ne_nil gave (named.trans empty)
  · intro inner
    exact normalized.isSome_get? (Text.trim inner)
  · intro entry member
    rw [(normalized.trim_of_mem member).2]
  · intro inner
    rw [Template.value?]
    cases found : table.get? (Template.variableName inner) with
    | none => rfl
    | some value =>
      have trimmed := normalized.trim_of_get? found
      simp only [Option.filter_some, trimmed]

/-- Blanks around the name and the value of a line, a line with no name, and a fragment with blanks
around its name and nothing else in it. -/
def spacedFiles : FileSystem where
  entries :=
    let image := Layout.imageName
    let flat := Layout.variablesFileName
    let fragments := Layout.variablesDirectoryName
    [([image], .directory),
      ([image, flat], .file (Path.ofString " A : 1 \r\nB: 2\n : 3").bytes false),
      ([image, fragments], .directory),
      ([image, fragments, Layout.nameOf "B "], .file (Path.ofString " \n").bytes false)]
  distinct := by decide
  rooted := by
    simp only [FileSystem.Rooted, FileSystem.find]
    decide

/-- Only a name that is put in by itself can be empty when it is trimmed. -/
theorem tables_stay_normalized_spaced :
    ∃ table after, (aggregate (Path.ofString "/image") []).run.run { files := spacedFiles } =
        (.ok table, after) ∧
      (∀ entry ∈ table.entries, entry.1 ≠ []) ∧
      (∃ raw text, RootsGive spacedFiles [Path.ofString "/image"] raw text ∧
        Text.trim raw = ['A']) ∧
      ((table.insert [' '] ['x', '\n']).get? (Template.variableName ['\r'])).isSome ∧
      Template.value? (table.insert [' '] ['x', '\n']) ['B'] = none := by
  obtain ⟨after, run⟩ := Action.exists_run_of_toOption
    (show ((aggregate (Path.ofString "/image") []).run.run { files := spacedFiles }).1.toOption =
      some ⟨[(['B'], []), (['A'], ['1'])]⟩ by decide +kernel)
  have read := Read.roots run
  obtain ⟨-, -, named, found, -, -⟩ := tables_stay_normalized (.read read)
  obtain ⟨-, -, -, foundAfter, -, valueAfter⟩ :=
    tables_stay_normalized (.insert (.read read) [' '] ['x', '\n'])
  refine ⟨_, after, run, named _ read, (found [' ', 'A']).1 rfl, ?_, valueAfter ['B']⟩
  exact (foundAfter ['\r']).2 ⟨[' '], ['x', '\n'], .inr ⟨rfl, rfl⟩, rfl⟩

end VariableTable

end ImageStaging
