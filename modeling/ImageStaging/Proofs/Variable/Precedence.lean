import ImageStaging.Proofs.FileSystem.NameOrder
import ImageStaging.Proofs.FileSystem.Tree
import ImageStaging.Proofs.Layout
import ImageStaging.Proofs.Variable.Source
import ImageStaging.Proofs.Variable.Table

/-!
# Which value of a variable prevails

Three rules decide among the values that a name is given: a fragment overrides every flat file, a
later root overrides an earlier one, and within one root the last line or the fragment whose name
is greatest in the order of bytes overrides the others. The table that collecting the variables
ends with answers every name by these rules and no other name.
-/

namespace ImageStaging.VariableSource

open ImageStaging.Action (Ends ends_bind ends_blaming ends_look)

variable {files : FileSystem} {name value : Text}

/-- The flat file at a path gives the name this value. -/
def FlatDefines (files : FileSystem) (path : Path) (name value : Text) : Prop :=
  ∃ content, files.readText path = .ok content ∧ LinesDefine content name value

/-- An entry of a fragment directory is a file, links followed, with the name of the variable. -/
def NamesVariable (files : FileSystem) (directory : Path) (name : Text) (entry : Name) : Prop :=
  (∃ content executable,
    files.examine (directory.join entry.toPath) = .ok (.file content executable)) ∧
  ∃ text, Utf8.decode? entry.bytes = some text ∧ Text.trim text = name

/-- The fragment of an entry gives the name this value. -/
def FragmentGives (files : FileSystem) (directory : Path) (name : Text) (entry : Name)
    (value : Text) : Prop :=
  NamesVariable files directory name entry ∧
    ∃ content, files.readText (directory.join entry.toPath) = .ok content ∧
      Text.trim content = value

/-- The fragment directory at a path gives the name this value: among its fragments with that name
the one whose own name is the greatest does. -/
def FragmentsDefine (files : FileSystem) (directory : Path) (name value : Text) : Prop :=
  ∃ listing, files.list directory = .ok listing ∧ ∃ entry ∈ listing,
    FragmentGives files directory name entry value ∧
      ∀ other ∈ listing, NamesVariable files directory name other → other.le entry = true

/-- What the entry of that name in a root defines. -/
def DefinedIn (defines : Path → Text → Text → Prop) (entry : String) (name : Text) (root : Path) :
    Text → Prop :=
  defines (root.join (Path.ofString entry)) name

/-- The value of a name that counts in the end, the roots being in the order they are read in. -/
def Prevails (files : FileSystem) (roots : List Path) (name value : Text) : Prop :=
  LastGives (DefinedIn (FragmentsDefine files) Layout.variablesDirectory name) roots value ∨
    (∀ root ∈ roots, ∀ other,
      ¬ DefinedIn (FragmentsDefine files) Layout.variablesDirectory name root other) ∧
    LastGives (DefinedIn (FlatDefines files) Layout.variablesFile name) roots value

/-- A table answers for the names that something is told of, none of which is empty. -/
def Answers (table : VariableTable) (tells : Text → Text → Prop) : Prop :=
  ∀ name value, table.get? name = some value ↔ name ≠ [] ∧ tells name value

/-- The same for a table that may be missing. -/
def MayAnswer (table? : Option VariableTable) (tells : Text → Text → Prop) : Prop :=
  ∀ name value, table?.bind (·.get? name) = some value ↔ name ≠ [] ∧ tells name value

/-! ## One source -/

theorem existsAt_ends (path : Path) (world : World) :
    (existsAt path).Ends world
      (fun present after => after = world ∧ world.files.exists? path = .ok present)
      fun _ _ => True := by
  rw [existsAt, ends_blaming, ends_look]
  constructor
  · exact fun present answer => ⟨rfl, answer⟩
  · exact fun fault _ => trivial

theorem readText_of_missing {path : Path} (missing : files.exists? path = .ok false)
    (content : Text) : files.readText path ≠ .ok content := by
  intro readable
  have gone := FileSystem.exists?_eq_ok_false_iff.1 missing
  simp only [FileSystem.readText, FileSystem.read, gone, bind, Except.bind] at readable
  cases readable

theorem list_of_missing {path : Path} (missing : files.exists? path = .ok false)
    (listing : List Name) : files.list path ≠ .ok listing := by
  intro listed
  have gone := FileSystem.exists?_eq_ok_false_iff.1 missing
  simp only [FileSystem.examine, FileSystem.list] at gone listed
  cases located : files.locate .target path with
  | ok location => simp [located, bind, Except.bind, pure, Except.pure] at gone
  | error fault => simp [located, bind, Except.bind] at listed

theorem readFlat_ends (path : Path) {world : World} (same : world.files = files) :
    (readFlat path).Ends world
      (fun table? after => after.files = files ∧ MayAnswer table? (FlatDefines files path))
      fun _ _ => True := by
  subst same
  rw [readFlat, ends_bind]
  refine (existsAt_ends path world).mono ?_ fun _ _ _ => trivial
  rintro present after ⟨rfl, asked⟩
  cases present with
  | false =>
    refine ⟨rfl, fun name value => ?_⟩
    simp [FlatDefines, readText_of_missing asked]
  | true =>
    rw [if_pos rfl, ends_bind, ends_blaming, ends_look]
    refine ⟨fun content readable => ⟨rfl, fun name value => ?_⟩, fun _ _ => trivial⟩
    simp [FlatDefines, readable, VariableTable.get?_parseFlat]

/-- An entry stops the reading of its directory if it cannot be looked at, and a file does so if its
name is no text, or if it names a variable and its content cannot be read as a text. As every
regular file can be read, `unreadable` means that its content is not UTF-8. -/
inductive Stops (files : FileSystem) (directory : Path) (entry : Name) : VariableFault → Prop
  | unknown {fault : FileFault}
      (examined : files.examine (directory.join entry.toPath) = .error fault) :
      Stops files directory entry (.unreadable (directory.join entry.toPath) fault)
  | nameNotText {content : Bytes} {executable : Bool}
      (isFile : files.examine (directory.join entry.toPath) = .ok (.file content executable))
      (noText : Utf8.decode? entry.bytes = none) :
      Stops files directory entry (.nameNotText (directory.join entry.toPath))
  | unreadable {content : Bytes} {executable : Bool} {text : Text} {fault : FileFault}
      (isFile : files.examine (directory.join entry.toPath) = .ok (.file content executable))
      (decoded : Utf8.decode? entry.bytes = some text) (proper : Text.trim text ≠ [])
      (unread : files.readText (directory.join entry.toPath) = .error fault) :
      Stops files directory entry (.unreadable (directory.join entry.toPath) fault)

/-- The entry of a listing with the smallest name among those that stop the reading has this
fault. -/
def FirstStop (files : FileSystem) (directory : Path) (listing : List Name)
    (fault : VariableFault) : Prop :=
  ∃ entry ∈ listing, Stops files directory entry fault ∧
    ∀ other ∈ listing, (∃ reason, Stops files directory other reason) → entry.le other = true

/-- All these entries let the reading go on. -/
def NoneStops (files : FileSystem) (directory : Path) (entries : List Name) : Prop :=
  ∀ entry ∈ entries, ∀ fault, ¬ Stops files directory entry fault

theorem NoneStops.concat {directory : Path} {entries : List Name} {entry : Name}
    (passed : NoneStops files directory entries)
    (goesOn : ∀ fault, ¬ Stops files directory entry fault) :
    NoneStops files directory (entries ++ [entry]) := by
  intro other member
  rcases List.mem_append.1 member with inside | last
  · exact passed other inside
  · exact List.mem_singleton.1 last ▸ goesOn

/-- Reading an entry of a fragment directory fails with what stops it there, or it gives its
fragment if it names a variable. -/
theorem readFragment_ends (directory : Path) (entry : Name) (world : World) :
    (readFragment directory entry).Ends world
      (fun fragment? after => after.files = world.files ∧
        (∀ fault, ¬ Stops world.files directory entry fault) ∧
        match fragment? with
        | some (text, content) => Text.trim text ≠ [] ∧
            NamesVariable world.files directory (Text.trim text) entry ∧
            world.files.readText (directory.join entry.toPath) = .ok content
        | none => ∀ name, name ≠ [] → ¬ NamesVariable world.files directory name entry)
      (fun fault after => after.files = world.files ∧
        Stops world.files directory entry fault) := by
  rw [readFragment]
  simp only [ends_bind, ends_blaming, ends_look]
  refine ⟨fun found examined => ?_, fun fault examined => ⟨trivial, .unknown examined⟩⟩
  cases found with
  | file content executable =>
    simp only [Entry.isFile, if_true]
    split
    · rename_i noText
      exact ⟨rfl, .nameNotText examined noText⟩
    · rename_i text decoded
      split
      · rename_i blank
        refine ⟨rfl, ?_, ?_⟩
        · rintro _ (unknown | ⟨-, noText⟩ | ⟨-, decoded', proper, -⟩)
          · cases examined.symm.trans unknown
          · cases decoded.symm.trans noText
          · obtain rfl := Option.some.inj (decoded.symm.trans decoded')
            exact proper blank
        · rintro _ proper ⟨-, text', decoded', rfl⟩
          obtain rfl : text = text' := Option.some.inj (decoded.symm.trans decoded')
          exact proper blank
      · rename_i proper
        simp only [ends_bind, ends_blaming, ends_look]
        refine ⟨fun content readable => ⟨rfl, ?_, ?_⟩, fun fault unread =>
          ⟨trivial, .unreadable examined decoded proper unread⟩⟩
        · rintro _ (unknown | ⟨-, noText⟩ | ⟨-, -, -, unread⟩)
          · cases examined.symm.trans unknown
          · cases decoded.symm.trans noText
          · cases readable.symm.trans unread
        · exact ⟨proper, ⟨⟨_, _, examined⟩, text, decoded, rfl⟩, readable⟩
  | directory | link | fullDevice =>
    refine ⟨rfl, ?_, ?_⟩
    · rintro _ (unknown | ⟨isFile, -⟩ | ⟨isFile, -, -, -⟩)
      · cases examined.symm.trans unknown
      · cases examined.symm.trans isFile
      · cases examined.symm.trans isFile
    · rintro name - ⟨⟨content, executable, isFile⟩, -⟩
      cases examined.symm.trans isFile

/-- What the fragments read so far make of every name. -/
structure Collected (files : FileSystem) (directory : Path) (entries : List Name)
    (table : VariableTable) : Prop where
  answers : ∀ name value, table.get? name = some value ↔
    name ≠ [] ∧ LastGives (FragmentGives files directory name) entries value
  /-- No fragment with a name was unreadable. -/
  readable : ∀ entry ∈ entries, ∀ name, name ≠ [] → NamesVariable files directory name entry →
    ∃ value, FragmentGives files directory name entry value

theorem collected_nil (directory : Path) : Collected files directory [] .empty where
  answers := fun name value => by simp [not_lastGives_nil]
  readable := fun entry member => absurd member List.not_mem_nil

theorem Collected.skip {directory : Path} {entries : List Name} {table : VariableTable}
    (collected : Collected files directory entries table) {entry : Name}
    (nameless : ∀ name, name ≠ [] → ¬ NamesVariable files directory name entry) :
    Collected files directory (entries ++ [entry]) table where
  answers := by
    intro name value
    rw [collected.answers name value, lastGives_concat]
    constructor
    · rintro ⟨proper, before⟩
      exact ⟨proper, .inr ⟨fun other gives => nameless name proper gives.1, before⟩⟩
    · rintro ⟨proper, gives | ⟨-, before⟩⟩
      · exact absurd gives.1 (nameless name proper)
      · exact ⟨proper, before⟩
  readable := by
    intro other member name proper names
    rcases List.mem_append.1 member with inside | last
    · exact collected.readable other inside name proper names
    · obtain rfl := List.mem_singleton.1 last
      exact absurd names (nameless name proper)

theorem Collected.insert {directory : Path} {entries : List Name} {table : VariableTable}
    (collected : Collected files directory entries table) {entry : Name} {text content : Text}
    (proper : Text.trim text ≠ []) (names : NamesVariable files directory (Text.trim text) entry)
    (readable : files.readText (directory.join entry.toPath) = .ok content) :
    Collected files directory (entries ++ [entry]) (table.insert text content) := by
  -- the entry has one name only, so it names no other variable
  have only : ∀ name, NamesVariable files directory name entry → name = Text.trim text := by
    obtain ⟨-, own, decoded, same⟩ := names
    rintro name ⟨-, other, decoded', rfl⟩
    obtain rfl : own = other := Option.some.inj (decoded.symm.trans decoded')
    exact same
  have gives : ∀ value, FragmentGives files directory (Text.trim text) entry value ↔
      Text.trim content = value := by
    intro value
    constructor
    · rintro ⟨-, other, readable', rfl⟩
      obtain rfl : content = other := Except.ok.inj (readable.symm.trans readable')
      rfl
    · exact fun same => ⟨names, content, readable, same⟩
  constructor
  · intro name value
    rw [VariableTable.get?_insert, lastGives_concat]
    by_cases same : name = Text.trim text
    · subst same
      simp [proper, gives]
    · rw [if_neg same, collected.answers name value]
      have silent : ∀ other, ¬ FragmentGives files directory name entry other :=
        fun other said => same (only name said.1)
      simp [silent]
  · intro other member name _ named
    rcases List.mem_append.1 member with inside | last
    · exact collected.readable other inside name ‹_› named
    · obtain rfl := List.mem_singleton.1 last
      exact ⟨Text.trim content, named, content, readable, rfl⟩

theorem Collected.fragmentsDefine {directory : Path} {listing : List Name}
    {table : VariableTable} (listed : files.list directory = .ok listing)
    (collected : Collected files directory (listing.mergeSort Name.le) table) :
    Answers table (FragmentsDefine files directory) := by
  intro name value
  rw [collected.answers name value, and_congr_right_iff]
  intro proper
  rw [lastGives_iff_greatest Name.le_antisymm Name.le_refl (Name.pairwise_sorted listing)]
  simp only [List.mem_mergeSort]
  constructor
  · rintro ⟨entry, member, gives, greatest⟩
    refine ⟨listing, listed, entry, member, gives, fun other within names => ?_⟩
    exact greatest other within
      (collected.readable other (List.mem_mergeSort.2 within) name proper names)
  · rintro ⟨listing', listed', entry, member, gives, greatest⟩
    obtain rfl : listing = listing' := Except.ok.inj (listed.symm.trans listed')
    exact ⟨entry, member, gives, fun other within ⟨_, said⟩ => greatest other within said.1⟩

/-- A listing is read in the order of its names, up to the first entry that stops the reading. -/
theorem readListing_ends (directory : Path) (listing : List Name) (world : World) :
    (readListing directory listing).Ends world
      (fun table after => after.files = world.files ∧
        Collected world.files directory (listing.mergeSort Name.le) table ∧
        NoneStops world.files directory listing)
      (fun fault after => after.files = world.files ∧
        FirstStop world.files directory listing fault) := by
  have sorted : (readListing directory listing).Ends world
      (fun table after => after.files = world.files ∧
        Collected world.files directory (listing.mergeSort Name.le) table ∧
        NoneStops world.files directory (listing.mergeSort Name.le))
      (fun fault after => after.files = world.files ∧
        FirstStop world.files directory listing fault) := by
    refine Ends.foldlM_split (fun seen table after => after.files = world.files ∧
      Collected world.files directory seen table ∧ NoneStops world.files directory seen)
      ⟨rfl, collected_nil directory, fun _ member => absurd member List.not_mem_nil⟩ ?_
    rintro before entry rest split table after ⟨same, collected, passed⟩
    rw [ends_bind]
    refine (readFragment_ends directory entry after).mono ?_ ?_
    · rintro fragment? later ⟨kept, goesOn, read⟩
      rw [same] at kept goesOn read
      cases fragment? with
      | none => exact ⟨kept, collected.skip read, passed.concat goesOn⟩
      | some fragment =>
        exact ⟨kept, collected.insert read.1 read.2.1 read.2.2, passed.concat goesOn⟩
    · rintro fault later ⟨kept, stops⟩
      rw [same] at kept stops
      have here : entry ∈ listing.mergeSort Name.le :=
        split ▸ List.mem_append_right before List.mem_cons_self
      refine ⟨kept, entry, List.mem_mergeSort.1 here, stops, ?_⟩
      rintro other member ⟨reason, stopsToo⟩
      rcases Name.before_or_le_of_sorted split member with inside | above
      · exact absurd stopsToo (passed other inside reason)
      · exact above
  refine sorted.mono ?_ fun _ _ failed => failed
  rintro table after ⟨same, collected, passed⟩
  exact ⟨same, collected, fun entry member => passed entry (List.mem_mergeSort.2 member)⟩

theorem readFragments_ends (path : Path) {world : World} (same : world.files = files) :
    (readFragments path).Ends world
      (fun table? after => after.files = files ∧ MayAnswer table? (FragmentsDefine files path))
      fun _ _ => True := by
  subst same
  rw [readFragments, ends_bind]
  refine (existsAt_ends path world).mono ?_ fun _ _ _ => trivial
  rintro present after ⟨rfl, asked⟩
  cases present with
  | false =>
    refine ⟨rfl, fun name value => ?_⟩
    simp [FragmentsDefine, list_of_missing asked]
  | true =>
    simp only [if_true, ends_bind, ends_blaming, ends_look, implies_true, and_true]
    intro listing listed
    refine (readListing_ends path listing after).mono ?_ fun _ _ _ => trivial
    rintro table later ⟨same, collected, -⟩
    exact ⟨same, collected.fragmentsDefine listed⟩

/-! ## All sources -/

/-- What one more item gives counts before all that was known: what the items in front of it give
last or, if none of them gives anything, what was told at first. -/
theorem or_eq_some_iff_lastGives {ι α : Type} {gives : ι → α → Prop} {told : α → Prop}
    {items : List ι} {item : ι} {said known : Option α}
    (own : ∀ value, said = some value ↔ gives item value)
    (before : ∀ value, known = some value ↔
      LastGives gives items value ∨ (∀ other ∈ items, ∀ word, ¬ gives other word) ∧ told value)
    (value : α) :
    said.or known = some value ↔ LastGives gives (items ++ [item]) value ∨
      (∀ other ∈ items ++ [item], ∀ word, ¬ gives other word) ∧ told value := by
  rw [lastGives_concat]
  cases said with
  | some word =>
    have spoken : ¬ ∀ other, ¬ gives item other := fun silent => silent word ((own word).1 rfl)
    have spokenAmong : ¬ ∀ other ∈ items ++ [item], ∀ word, ¬ gives other word :=
      fun silent => spoken (silent item (by simp))
    simp only [Option.some_or, own value, spoken, spokenAmong, false_and, or_false]
  | none =>
    have silent : ∀ other, ¬ gives item other := by
      intro other given
      cases (own other).2 given
    rw [Option.none_or, before value]
    simp [silent, or_imp, forall_and]

/-- Putting the tables of one kind of source over a table hides what it said of their names. -/
theorem mergeEach_ends {readTable : Path → Action VariableFault (Option VariableTable)}
    {defines : Path → Text → Text → Prop}
    (reads : ∀ path world, world.files = files → (readTable path).Ends world
      (fun table? after => after.files = files ∧ MayAnswer table? (defines path))
      fun _ _ => True)
    (entry message : String) (roots : List Path) {table : VariableTable}
    {tells : Text → Text → Prop} (told : Answers table tells) (world : World)
    (same : world.files = files) :
    (mergeEach entry message readTable roots table).Ends world
      (fun merged after => after.files = files ∧ Answers merged fun name value =>
        LastGives (DefinedIn defines entry name) roots value ∨
          (∀ root ∈ roots, ∀ other, ¬ DefinedIn defines entry name root other) ∧
            tells name value)
      fun _ _ => True := by
  rw [mergeEach]
  refine Ends.foldlM (fun seen merged after => after.files = files ∧
    Answers merged fun name value =>
      LastGives (DefinedIn defines entry name) seen value ∨
        (∀ root ∈ seen, ∀ other, ¬ DefinedIn defines entry name root other) ∧ tells name value)
    ⟨same, fun name value => by simp [told name value, not_lastGives_nil]⟩ ?_
  rintro before root - merged after ⟨kept, answers⟩
  rw [ends_bind]
  refine (reads (root.join (Path.ofString entry)) after kept).mono ?_ fun _ _ _ => trivial
  rintro table? later ⟨kept, may⟩
  have step : ∀ name value, (table?.bind (·.get? name)).or (merged.get? name) = some value ↔
      name ≠ [] ∧ (LastGives (DefinedIn defines entry name) (before ++ [root]) value ∨
        (∀ other ∈ before ++ [root], ∀ word, ¬ DefinedIn defines entry name other word) ∧
          tells name value) := by
    intro name value
    rcases eq_or_ne name [] with rfl | proper
    · simp [Option.or_eq_some_iff, may [], answers []]
    · rw [and_iff_right proper]
      refine or_eq_some_iff_lastGives (fun value => ?_) (fun value => ?_) value
      · exact (may name value).trans (and_iff_right proper)
      · exact (answers name value).trans (and_iff_right proper)
  cases table? with
  | none => exact ⟨kept, fun name value => by simpa using step name value⟩
  | some more =>
    refine ⟨kept, fun name value => ?_⟩
    rw [VariableTable.get?_merge]
    exact step name value

theorem aggregate_ends (source : Path) (libraries : List Path) (world : World) :
    (aggregate source libraries).Ends world
      (fun table after => after.files = world.files ∧
        Answers table (Prevails world.files (source :: libraries)))
      fun _ _ => True := by
  have nothing : Answers .empty fun _ _ => False := fun name value => by simp
  rw [aggregate, ends_bind]
  refine (mergeEach_ends (fun path _ same => readFlat_ends path same) Layout.variablesFile
    "read variables file" (source :: libraries) nothing world rfl).mono ?_ fun _ _ _ => trivial
  rintro table after ⟨same, answers⟩
  have flat : Answers table fun name value =>
      LastGives (DefinedIn (FlatDefines world.files) Layout.variablesFile name)
        (source :: libraries) value := by
    simpa using answers
  exact mergeEach_ends (fun path _ same => readFragments_ends path same)
    Layout.variablesDirectory "read variable fragments" (source :: libraries) flat after same

/-- Where the variables of a source and its libraries can be read, a name that is not empty has
the value that prevails, which may be an empty one, and no other name has any value. -/
theorem aggregate_get?_iff {source : Path} {libraries : List Path} {world after : World}
    {table : VariableTable}
    (run : (aggregate source libraries).run.run world = (.ok table, after)) (name value : Text) :
    table.get? name = some value ↔
      name ≠ [] ∧ Prevails world.files (source :: libraries) name value :=
  ((aggregate_ends source libraries world).of_ok run).2 name value

/-- An empty fragment of a source, which hides what all the flat files say. -/
def hidingFiles : FileSystem where
  entries :=
    let image := Layout.imageName
    let library := Layout.libraryName
    let flat := Layout.variablesFileName
    let fragments := Layout.variablesDirectoryName
    [([image], .directory),
      ([image, flat], .file (Path.ofString "A: 1\nB: 2\nA: 3").bytes false),
      ([image, fragments], .directory),
      ([image, fragments, Layout.fragmentName], .file [] false),
      ([library], .directory),
      ([library, flat], .file (Path.ofString "A: 4\nB: 5").bytes false)]
  distinct := by decide
  rooted := by
    simp only [FileSystem.Rooted, FileSystem.find]
    decide

theorem aggregate_get?_iff_hiding :
    ∃ table after, (aggregate (Path.ofString "/image") [Path.ofString "/library"]).run.run
        { files := hidingFiles } = (.ok table, after) ∧
      table.get? ['A'] = some [] ∧
      Prevails hidingFiles [Path.ofString "/image", Path.ofString "/library"] ['A'] [] ∧
      Prevails hidingFiles [Path.ofString "/image", Path.ofString "/library"] ['B'] ['5'] := by
  obtain ⟨after, run⟩ := Action.exists_run_of_toOption
    (show ((aggregate (Path.ofString "/image") [Path.ofString "/library"]).run.run
      { files := hidingFiles }).1.toOption = some ⟨[(['A'], []), (['B'], ['5'])]⟩ by
        decide +kernel)
  have answers := aggregate_get?_iff run
  exact ⟨_, after, run, rfl, ((answers ['A'] []).1 rfl).2, ((answers ['B'] ['5']).1 rfl).2⟩

/-- The only fragment of a source has a blank name. -/
def blankFiles : FileSystem where
  entries :=
    let image := Layout.imageName
    let fragments := Layout.variablesDirectoryName
    [([image], .directory),
      ([image, fragments], .directory),
      ([image, fragments, Layout.blankName], .file (Path.ofString "v").bytes false)]
  distinct := by decide
  rooted := by
    simp only [FileSystem.Rooted, FileSystem.find]
    decide

/-- The value of the empty name would be that of the fragment, but such a fragment is passed over. -/
theorem blank_fragment_passed_over :
    ∃ table after, (aggregate (Path.ofString "/image") []).run.run { files := blankFiles } =
        (.ok table, after) ∧
      Prevails blankFiles [Path.ofString "/image"] [] ['v'] ∧ table.get? [] = none := by
  obtain ⟨after, run⟩ := Action.exists_run_of_toOption
    (show ((aggregate (Path.ofString "/image") []).run.run
      { files := blankFiles }).1.toOption = some .empty by decide +kernel)
  have listed : blankFiles.list (Path.ofString "/image/Dockerfile.variables.d") =
      .ok [Layout.nameOf " "] := by decide
  refine ⟨.empty, after, run, ?_, rfl⟩
  refine .inl ⟨[], Path.ofString "/image", [], rfl, ⟨_, listed, Layout.nameOf " ", ?_⟩, ?_⟩
  · refine ⟨List.mem_singleton_self _, ⟨⟨⟨['v'.toNat.toUInt8], false, ?_⟩, [' '], ?_, rfl⟩, ?_⟩, ?_⟩
    · decide
    · decide
    · exact ⟨['v'], by decide, rfl⟩
    · intro other member _
      rw [List.mem_singleton.1 member]
      exact Name.le_refl _
  · exact fun later member => absurd member List.not_mem_nil

end ImageStaging.VariableSource
