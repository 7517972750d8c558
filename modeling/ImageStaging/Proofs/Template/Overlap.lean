import ImageStaging.Proofs.FileSystem.Same
import ImageStaging.Proofs.Layout
import ImageStaging.Proofs.Template.Fetching
import ImageStaging.Proofs.Writing

/-!
# Where references overlap

Two references can write the same file of the context: they may spell one path in two ways, or one
path may lie below the other. Both then take the file from the same library, so neither undoes what
the other did, and a pass that succeeds comes to the same in any order of the references.
-/

namespace ImageStaging.Template

open FileSystem (Confined Same)

variable {start files other other' : FileSystem} {context : Path} {root location : Location}
  {libraries : List Path} {world before between : World} {inner inner' template : Text}
  {library library' : Path} {place : List Name} {entry entry' : Entry}

/-! ## Fetching one reference -/

/-- In a world a reference is taken from a library. -/
def TakenFrom (libraries : List Path) (inner : Text) (world : World) (library : Path) : Prop :=
  ∃ path, containedPath? (sharedPath inner) = some path ∧
    (findLibrary? path libraries).run.run world = (.ok (some library), world)

/-- A reference brings a file to a location, the context being at the root. -/
def BringsFile (start : FileSystem) (root : Location) (libraries : List Path) (inner : Text)
    (location : Location) : Prop :=
  ∃ place content executable, location = root ++ place ∧
    Brings start libraries inner place (.file content executable)

/-- A reference is taken from one library, and written is what it brings from there. -/
theorem fetch_writes (inner : Text) (confined : Confined start context root world.files)
    (apart : LibrariesApart start root libraries) :
    (fetch libraries context inner).Ends world
      (fun _ after => (∃ library, TakenFrom libraries inner world library) ∧
        world.WritesOnly (BringsFile start root libraries inner) after)
      (fun _ _ => True) := by
  refine (fetch_copies_or_refuses inner world).mono ?_ fun _ _ _ => trivial
  rintro _ _ ⟨path, library, count, copied, event, contained, run, holder, copies, rfl⟩
  obtain ⟨front, proper, moves⟩ := names_of_holder contained holder.holds
  have only := (TreeCopy.copy_writes (apart.join contained holder moves)
    (descends_join contained moves) proper confined).of_ok copies
  refine ⟨⟨library, path, contained, run⟩, (only.mono ?_).trans (.of_same rfl)⟩
  rintro _ ⟨rest, content, executable, rfl, stands⟩
  have holderThen := holder.at_start confined apart contained
  exact ⟨front ++ rest, content, executable, List.append_assoc _ _ _,
    (brings_iff contained holderThen moves).2 ⟨rest, rfl, stands⟩⟩

/-- The library is the first that holds the path before the pass begins. -/
theorem TakenFrom.at_start (taken : TakenFrom libraries inner world library)
    (confined : Confined start context root world.files)
    (apart : LibrariesApart start root libraries) :
    ∃ path, ∃ front : List Name, containedPath? (sharedPath inner) = some path ∧
      FirstHolder start libraries path library ∧ path.moves = front.map .enter := by
  obtain ⟨path, contained, run⟩ := taken
  cases ((findLibrary?_ends path libraries).of_ok run).2 with
  | holds holder =>
    obtain ⟨front, _, moves⟩ := names_of_holder contained holder.holds
    exact ⟨path, front, contained, holder.at_start confined apart contained, moves⟩

/-- References that bring something to one place are taken from one library. -/
theorem TakenFrom.unique {world' : World} (taken : TakenFrom libraries inner world library)
    (taken' : TakenFrom libraries inner' world' library')
    (confined : Confined start context root world.files)
    (confined' : Confined start context root world'.files)
    (apart : LibrariesApart start root libraries)
    (brings : Brings start libraries inner place entry)
    (brings' : Brings start libraries inner' place entry') : library = library' := by
  obtain ⟨path, front, contained, holder, moves⟩ := taken.at_start confined apart
  obtain ⟨path', front', contained', holder', moves'⟩ := taken'.at_start confined' apart
  obtain ⟨rest, rfl, stands⟩ := (brings_iff contained holder moves).1 brings
  obtain ⟨rest', samePlace, stands'⟩ := (brings_iff contained' holder' moves').1 brings'
  exact holder.eq_of_same_place contained contained' holder' moves moves' samePlace stands stands'

/-! ## Fetching in the course of a pass -/

/-- A pass over some references fetches one of them between two worlds. -/
def Fetches (libraries : List Path) (context : Path) (references : List Text) (world : World)
    (inner : Text) (before after : World) : Prop :=
  ∃ front back, references = front ++ inner :: back ∧
    (front.forM (fetch libraries context)).run.run world = (.ok ⟨⟩, before) ∧
    (fetch libraries context inner).run.run before = (.ok ⟨⟩, after)

namespace Fetches

variable {references : List Text}
  (fetches : Fetches libraries context references world inner before between)
  (confined : Confined start context root world.files)
include fetches

theorem mem : inner ∈ references := by
  obtain ⟨front, back, rfl, _⟩ := fetches
  simp

include confined

theorem confined_before : Confined start context root before.files := by
  obtain ⟨front, _, _, run, _⟩ := fetches
  exact ((forM_fetch_ends front confined).of_ok run).1

variable (apart : LibrariesApart start root libraries)
include apart

theorem supplied (brings : Brings start libraries inner place entry) :
    between.files.get? (root ++ place) = some entry := by
  have confinedThen := fetches.confined_before confined
  obtain ⟨_, _, _, _, run⟩ := fetches
  obtain ⟨front, tree, laid, iff⟩ := ((fetch_ends inner confinedThen).of_ok run).2 apart
  obtain ⟨rest, rfl, stands⟩ := (iff place entry).1 brings
  rw [← List.append_assoc]
  exact laid.supplied rest entry stands

theorem taken : ∃ library, TakenFrom libraries inner before library := by
  have confinedThen := fetches.confined_before confined
  obtain ⟨_, _, _, _, run⟩ := fetches
  exact ((fetch_writes inner confinedThen apart).of_ok run).1

theorem brings_of_writes (writes : before.Writes between location) :
    BringsFile start root libraries inner location := by
  have confinedThen := fetches.confined_before confined
  obtain ⟨_, _, _, _, run⟩ := fetches
  exact ((fetch_writes inner confinedThen apart).of_ok run).2.allows writes

end Fetches

/-! ## Passes over the same references -/

namespace Fetched

variable {fetched fetched' : List Text}
  (one : Fetched start root libraries fetched files other)
  (two : Fetched start root libraries fetched' files other')
  (members : ∀ inner, inner ∈ fetched' ↔ inner ∈ fetched)
include one

/-- Something stands wherever a reference brings something further below. -/
theorem isSome_above (member : inner ∈ fetched) {rest : List Name}
    (brings : Brings start libraries inner (place ++ rest) entry) :
    (other.get? (root ++ place)).isSome := by
  have stands := one.present inner member _ entry brings
  rw [← List.append_assoc] at stands
  by_cases here : rest = []
  · rw [here, List.append_nil] at stands
    rw [stands]
    rfl
  · rw [FileSystem.get?_append_of_isSome (by rw [stands]; rfl) here]
    rfl

include two members

theorem get?_eq (place : List Name) : other'.get? (root ++ place) = other.get? (root ++ place) := by
  by_cases brought : ∃ inner ∈ fetched, ∃ entry, Brings start libraries inner place entry
  · obtain ⟨inner, member, entry, brings⟩ := brought
    rw [one.present inner member place entry brings,
      two.present inner ((members inner).2 member) place entry brings]
  · have unbrought : ∀ inner ∈ fetched, ∀ entry, ¬ Brings start libraries inner place entry :=
      fun inner member entry brings => brought ⟨inner, member, entry, brings⟩
    have unbrought' : ∀ inner ∈ fetched', ∀ entry, ¬ Brings start libraries inner place entry :=
      fun inner member => unbrought inner ((members inner).1 member)
    -- A directory that one pass makes above what is brought is made by the other, too.
    rcases one.others place unbrought with kept | ⟨nothing, made, inner, member, rest, entry, brings⟩
    · rcases two.others place unbrought' with
        kept' | ⟨nothing, made, inner, member, rest, entry, brings⟩
      · rw [kept, kept']
      · have stands := one.isSome_above ((members inner).1 member) brings
        rw [kept, nothing] at stands
        cases stands
    · rcases two.others place unbrought' with kept' | ⟨_, made', _⟩
      · have stands := two.isSome_above ((members inner).2 member) brings
        rw [kept', nothing] at stands
        cases stands
      · rw [made, made']

theorem same (confined : Confined start context root other)
    (confined' : Confined start context root other') : Same other other' := by
  have agree := confined.agree.symm.trans confined'.agree
  refine ⟨agree.workingDirectory, fun location => ?_⟩
  by_cases inside : root <+: location
  · obtain ⟨place, rfl⟩ := inside
    exact one.get?_eq two members place
  · exact agree.get? location inside

end Fetched

/-- A file that is written for two references is taken from one library, is the same after either
of them, and is the one that the pass leaves; so passes over the same references leave the same
files, in whatever order they come to the references. The context is as staging leaves one, a
directory with only files and directories in it, and the libraries keep out of it. -/
theorem references_never_clobber
    (found : world.files.locate .target context = .ok root)
    (isDirectory : world.files.get? root = some .directory) (plain : world.files.Plain root)
    (apart : LibrariesApart world.files root libraries) {text : Text} {after : World}
    (resolves : (resolveFiles template libraries context).run.run world = (.ok text, after)) :
    (∀ inner inner' before between before' between' location,
      Fetches libraries context (references .file template) world inner before between →
      Fetches libraries context (references .file template) world inner' before' between' →
      before.Writes between location → before'.Writes between' location →
      ∃ library content executable, TakenFrom libraries inner before library ∧
        TakenFrom libraries inner' before' library ∧
        between.files.get? location = some (.file content executable) ∧
        between'.files.get? location = some (.file content executable) ∧
        after.files.get? location = some (.file content executable)) ∧
    ∀ template' text' after',
      (∀ inner, inner ∈ references .file template' ↔ inner ∈ references .file template) →
      (resolveFiles template' libraries context).run.run world = (.ok text', after') →
      Same after.files after'.files := by
  have confined := Confined.of_plain found isDirectory plain
  obtain ⟨-, confinedAfter, fetched⟩ := (resolveFiles_ends template confined).of_ok resolves
  constructor
  · intro inner inner' before between before' between' location first second writes writes'
    obtain ⟨place, content, executable, rfl, brings⟩ :=
      first.brings_of_writes confined apart writes
    obtain ⟨_, _, _, samePlace, brings'⟩ := second.brings_of_writes confined apart writes'
    obtain rfl := List.append_cancel_left samePlace
    rw [← brings.unique brings'] at brings'
    obtain ⟨library, taken⟩ := first.taken confined apart
    obtain ⟨library', taken'⟩ := second.taken confined apart
    obtain rfl := taken.unique taken' (first.confined_before confined)
      (second.confined_before confined) apart brings brings'
    exact ⟨library, content, executable, taken, taken', first.supplied confined apart brings,
      second.supplied confined apart brings',
      (fetched apart).present inner first.mem place _ brings⟩
  · intro template' text' after' sameReferences resolves'
    obtain ⟨-, confinedAfter', fetched'⟩ := (resolveFiles_ends template' confined).of_ok resolves'
    exact (fetched apart).same (fetched' apart) sameReferences confinedAfter confinedAfter'

/-! ## A directory and a file in it -/

/-- A library with a file in a directory, and beside it a directory for a context. -/
def nestedFiles : FileSystem where
  entries := [
    ([Layout.nameOf "common"], .directory),
    ([Layout.nameOf "common", Layout.nameOf "twig"], .directory),
    ([Layout.nameOf "common", Layout.nameOf "twig", Layout.nameOf "leaf"], .file [1] true),
    ([Layout.nameOf "staged"], .directory)]
  distinct := by decide
  rooted := by
    simp only [FileSystem.Rooted, FileSystem.find]
    decide

def nestedLibraries : List Path := [Path.ofString "/common"]

def nestedContext : Path := Path.ofString "/staged"

/-- Where the file of the library comes to stand in the context. -/
def nestedLocation : Location :=
  [Layout.nameOf "staged", Layout.nameOf "twig", Layout.nameOf "leaf"]

def fetchNested (reference : String) : Action Failure Unit :=
  fetch nestedLibraries nestedContext reference.toList

/-- The world after some references have been fetched. -/
def afterFetching (fetched : List String) : World :=
  fetched.foldl (fun world reference => ((fetchNested reference).run.run world).2)
    { files := nestedFiles }

theorem nestedFiles_apart :
    LibrariesApart nestedFiles [Layout.nameOf "staged"] nestedLibraries := by
  intro library member
  rw [List.mem_singleton.1 member]
  exact @FileSystem.apart_of_plain nestedFiles [Layout.nameOf "staged"] [] (Path.ofString "/")
    (Layout.nameOf "common") (FileSystem.leads_of_locate (by decide)) (by decide) (by decide)
    (FileSystem.plain_of_entries (by decide)) (by decide) (by decide)

/-- A pass over two references fetches one after the other. -/
theorem resolveFiles_nested {one two : String} {middle after : World}
    (isReferences : references .file template = [one.toList, two.toList])
    (first : (fetchNested one).run.run world = (.ok ⟨⟩, middle))
    (second : (fetchNested two).run.run middle = (.ok ⟨⟩, after)) :
    (resolveFiles template nestedLibraries nestedContext).run.run world =
      (.ok (withPaths template), after) := by
  have fetched : ((references .file template).forM
      (fetch nestedLibraries nestedContext)).run.run world = (.ok ⟨⟩, after) := by
    rw [isReferences]
    exact (Action.run_bind_of_ok first).trans ((Action.run_bind_of_ok second).trans rfl)
  rw [resolveFiles_eq]
  exact Action.run_bind_of_ok fetched

/-- The directory and the file in it are both written at the place of the file, by either reference
first. -/
theorem references_never_clobber_nested :
    (∃ library content executable,
      TakenFrom nestedLibraries "twig".toList (afterFetching []) library ∧
      TakenFrom nestedLibraries "./twig/leaf".toList (afterFetching ["twig"]) library ∧
      (afterFetching ["twig", "./twig/leaf"]).files.get? nestedLocation =
        some (.file content executable)) ∧
    Same (afterFetching ["twig", "./twig/leaf"]).files
      (afterFetching ["./twig/leaf", "twig"]).files := by
  have first : (fetchNested "twig").run.run (afterFetching []) = (.ok ⟨⟩, afterFetching ["twig"]) :=
    Action.run_eq_of_toOption (by decide +kernel)
  have second : (fetchNested "./twig/leaf").run.run (afterFetching ["twig"]) =
      (.ok ⟨⟩, afterFetching ["twig", "./twig/leaf"]) :=
    Action.run_eq_of_toOption (by decide +kernel)
  have first' : (fetchNested "./twig/leaf").run.run (afterFetching []) =
      (.ok ⟨⟩, afterFetching ["./twig/leaf"]) :=
    Action.run_eq_of_toOption (by decide +kernel)
  have second' : (fetchNested "twig").run.run (afterFetching ["./twig/leaf"]) =
      (.ok ⟨⟩, afterFetching ["./twig/leaf", "twig"]) :=
    Action.run_eq_of_toOption (by decide +kernel)
  have reads : references .file "%%_COMMON/twig%% %%_COMMON/./twig/leaf%%".toList =
      ["twig".toList, "./twig/leaf".toList] := by decide +kernel
  have reads' : references .file "%%_COMMON/./twig/leaf%% %%_COMMON/twig%%".toList =
      ["./twig/leaf".toList, "twig".toList] := by decide +kernel
  obtain ⟨agree, same⟩ := references_never_clobber (by decide) (by decide)
    (FileSystem.plain_of_entries (by decide)) nestedFiles_apart
    (resolveFiles_nested reads first second)
  constructor
  · obtain ⟨library, content, executable, taken, taken', -, -, stands⟩ :=
      agree _ _ _ _ _ _ nestedLocation ⟨[], ["./twig/leaf".toList], reads, rfl, first⟩
        ⟨["twig".toList], [], reads, (Action.run_bind_of_ok first).trans rfl, second⟩
        (by decide +kernel) (by decide +kernel)
    exact ⟨library, content, executable, taken, taken', stands⟩
  · refine same _ _ _ (fun inner => ?_) (resolveFiles_nested reads' first' second')
    rw [reads, reads', List.mem_pair, List.mem_pair, or_comm]

end ImageStaging.Template
