import ImageStaging.Proofs.Build.Call
import ImageStaging.Proofs.Config

/-!
# What the build tool is handed

At the call the context holds the final Dockerfile, the source tree, what the file references of a
template bring, and nothing else.
-/

namespace ImageStaging.Build

open FileSystem (Site)
open Layout (contextName dockerfileName imageName libraryName sourceTreeName templateName
  temporaryName)
open Replacement (Replaced)
open Template (Brings Fetched LibrariesApart references)

variable {world atCall : World} {context : BuildContext} {request : Request} {config : Config}
  {populated : World} {start rendered files : FileSystem} {root : Location}
  {copied : Option Flavour}

/-- The context of a request is at a location: at an entry of the directory that is the source. -/
def ContextAt (files : FileSystem) (request : Request) (config : Config) (root : Location) :
    Prop :=
  ∃ directory, ∃ name : Name, files.locate .target request.source = .ok directory ∧
    Path.ofString config.contextDirectory = name.toPath ∧ root = directory ++ [name]

theorem ContextAt.unique {root' : Location} (first : ContextAt files request config root)
    (second : ContextAt files request config root') : root = root' := by
  obtain ⟨directory, name, found, named, rfl⟩ := first
  obtain ⟨directory', name', found', named', rfl⟩ := second
  obtain rfl := Except.ok.inj (found.symm.trans found')
  rw [Name.toPath_injective (named.symm.trans named')]

/-- Nothing at or below the end of a path reaches into the context. -/
def KeepsOut (files : FileSystem) (request : Request) (config : Config) (path : Path) : Prop :=
  ∀ root, ContextAt files request config root → files.Apart root path

/-- What the Dockerfile or template of a source makes of a build: the bytes of the final Dockerfile
and the file references that were followed. For a template these are the bytes that the two passes
come to from where the run has staged the context. -/
inductive Yields (world : World) (request : Request) (config : Config) (context : BuildContext) :
    Bytes → List Text → Prop
  | plain {content : Bytes} {executable : Bool} (isPlain : context.flavour = .plain)
      (stands : world.files.examine (request.source.join dockerfileName.toPath) =
        .ok (.file content executable)) : Yields world request config context content []
  | template {template text : Text} {staged middle : World}
      (isTemplate : context.flavour = .template)
      (read : world.files.readText (request.source.join templateName.toPath) = .ok template)
      (staging : (stageUp request config).run.run world = (.ok context, staged))
      (passes : Passes request context template staged middle text) :
      Yields world request config context (Utf8.encode text) (references .file template)

theorem Passes.unique {template text text' : Text} {staged middle middle' : World}
    (passes : Passes request context template staged middle text)
    (passes' : Passes request context template staged middle' text') : text' = text := by
  obtain ⟨filePass, table, collected, resolved⟩ := passes
  obtain ⟨filePass', table', collected', resolved'⟩ := passes'
  obtain ⟨-, rfl⟩ := Prod.mk.inj (filePass.symm.trans filePass')
  obtain rfl := Except.ok.inj (collected.symm.trans collected')
  exact Except.ok.inj (resolved'.symm.trans resolved)

/-- A run makes one Dockerfile of a source. -/
theorem Yields.unique {content content' : Bytes} {fetched fetched' : List Text}
    (yields : Yields world request config context content fetched)
    (yields' : Yields world request config context content' fetched') :
    content' = content ∧ fetched' = fetched := by
  cases yields with
  | plain isPlain stands =>
    cases yields' with
    | plain _ stands' =>
      exact ⟨(Entry.file.inj (Except.ok.inj (stands'.symm.trans stands))).1, rfl⟩
    | template isTemplate => cases isPlain.symm.trans isTemplate
  | template isTemplate read staging passes =>
    cases yields' with
    | plain isPlain => cases isPlain.symm.trans isTemplate
    | template _ read' staging' passes' =>
      obtain rfl := Except.ok.inj (read.symm.trans read')
      obtain ⟨-, rfl⟩ := Prod.mk.inj (staging.symm.trans staging')
      rw [passes.unique passes']
      exact ⟨rfl, rfl⟩

/-- The entry that one of some file references brings to a place in the context. -/
def Supplies (start : FileSystem) (request : Request) (fetched : List Text) (place : List Name)
    (entry : Entry) : Prop :=
  ∃ inner ∈ fetched, Brings start request.libraries inner place entry

/-- What a context holds at the call of the tool, told by the files before the run. -/
structure HandedOver (start : FileSystem) (request : Request) (root : Location) (content : Bytes)
    (fetched : List Text) (files : FileSystem) : Prop where
  dockerfile : ∃ executable,
    files.get? (root ++ [dockerfileName]) = some (.file content executable)
  noTemplate : files.get? (root ++ [templateName]) = none
  noTemporary : files.get? (root ++ [temporaryName]) = none
  sourceTree : ∀ names entry,
    start.tree (request.source.join sourceTreeName.toPath) names = some entry →
    ∃ found, files.get? (root ++ sourceTreeName :: names) = some found ∧
      (found = entry ∨ Supplies start request fetched (sourceTreeName :: names) found)
  /-- Nothing comes from anywhere else, but for directories that lead to what is fetched. -/
  others : ∀ place entry, place ≠ [] → place ≠ [dockerfileName] →
    files.get? (root ++ place) = some entry →
    (∃ names, place = sourceTreeName :: names ∧
      start.tree (request.source.join sourceTreeName.toPath) names = some entry) ∨
    Supplies start request fetched place entry ∨
    (entry = .directory ∧ ∃ rest below, Supplies start request fetched (place ++ rest) below)

/-! ## Assembled contexts -/

namespace Assembled

variable (assembled : Assembled world request config context root copied populated rendered files)
include assembled

/-- The Dockerfile or template that keeps out of the context was copied as it is in the source. -/
theorem populated_own
    (fileOut : world.files.Apart root (request.source.join context.flavour.name.toPath))
    (names : List Name) :
    populated.files.get? (root ++ context.flavour.name :: names) =
      world.files.tree (request.source.join context.flavour.name.toPath) names :=
  assembled.staged.dockerfile _ (assembled.staged.agreed fileOut.here) fileOut names

theorem populated_nothing
    (fileOut : world.files.Apart root (request.source.join context.flavour.name.toPath)) {name : Name}
    (notTree : name ≠ sourceTreeName) (notOwn : name ≠ context.flavour.name) (rest : List Name) :
    populated.files.get? (root ++ name :: rest) = none := by
  refine assembled.staged.others name rest notTree fun found isFound => ?_
  rw [assembled.staged.agreed fileOut.here] at isFound
  rwa [← Option.some.inj isFound]

/-- The template that is read in the context is the one of the source. -/
theorem readText_eq {template : Text} (isTemplate : context.flavour = .template)
    (fileOut : world.files.Apart root (request.source.join context.flavour.name.toPath))
    (read : populated.files.readText context.templatePath = .ok template) :
    world.files.readText (request.source.join templateName.toPath) = .ok template := by
  have own := assembled.populated_own fileOut []
  have descends := (Path.Descends.refl context.root).join_name templateName
  rw [isTemplate, Flavour.name] at own
  cases found : populated.files.examine context.templatePath with
  | error fault =>
    rw [FileSystem.readText, FileSystem.read, found] at read
    cases read
  | ok entry =>
    have stands := assembled.staged.confined.examined descends found
    rw [List.nil_append] at stands
    rw [stands] at own
    have same := FileSystem.tree_eq_some_iff.1 own.symm
    rw [Path.below_nil] at same
    rw [FileSystem.readText, FileSystem.read, found] at read
    rw [FileSystem.readText, FileSystem.read, same]
    exact read

/-- Between populating a context and taking its template away, files were fetched and then the
Dockerfile was replaced. -/
theorem replaced_of_template (isTemplate : context.flavour = .template)
    (fileOut : world.files.Apart root (request.source.join context.flavour.name.toPath))
    (librariesOut : LibrariesApart world.files root request.libraries) :
    ∃ template middle text,
      world.files.readText (request.source.join templateName.toPath) = .ok template ∧
      Yields world request config context (Utf8.encode text) (references .file template) ∧
      Fetched world.files root request.libraries (references .file template) populated.files middle ∧
      Replaced root (Utf8.encode text) middle rendered := by
  have completed := assembled.completed
  rw [Completed, isTemplate] at completed
  obtain ⟨template, middle, text, read, passes, fetched, replaced⟩ := completed
  have read := assembled.readText_eq isTemplate fileOut read
  exact ⟨template, middle.files, text, read,
    .template isTemplate read assembled.staging passes, fetched librariesOut, replaced⟩

/-- A plain context is one for which neither made a difference. -/
theorem replaced_of_plain {content : Bytes} {executable : Bool} (isPlain : context.flavour = .plain)
    (fileOut : world.files.Apart root (request.source.join context.flavour.name.toPath))
    (regular : world.files.examine (request.source.join dockerfileName.toPath) =
      .ok (.file content executable)) :
    Replaced root content populated.files rendered := by
  have completed := assembled.completed
  rw [Completed, isPlain] at completed
  have own := assembled.populated_own fileOut []
  rw [isPlain, Flavour.name, FileSystem.tree_eq_some_iff.2 regular] at own
  obtain rfl : rendered = populated.files := completed
  refine ⟨⟨executable, own⟩, ?_, fun _ _ _ => rfl⟩
  refine assembled.populated_nothing fileOut (by decide) ?_ []
  rw [isPlain]
  decide

theorem replaced (fileOut : world.files.Apart root (request.source.join context.flavour.name.toPath))
    (librariesOut : LibrariesApart world.files root request.libraries)
    (regular : ∃ content executable,
      world.files.examine (request.source.join context.flavour.name.toPath) =
        .ok (.file content executable)) :
    ∃ content fetched middle, Yields world request config context content fetched ∧
      Fetched world.files root request.libraries fetched populated.files middle ∧
      Replaced root content middle rendered := by
  cases isFlavour : context.flavour with
  | plain =>
    rw [isFlavour] at regular
    obtain ⟨content, executable, stands⟩ := regular
    exact ⟨content, [], populated.files, .plain isFlavour stands, .nil populated.files,
      assembled.replaced_of_plain isFlavour fileOut stands⟩
  | template =>
    obtain ⟨template, middle, text, _, yields, fetched, replaced⟩ :=
      assembled.replaced_of_template isFlavour fileOut librariesOut
    exact ⟨_, _, middle, yields, fetched, replaced⟩

/-- Away from the files that are replaced and removed, fetching decides. -/
theorem get?_eq {content : Bytes} {middle : FileSystem}
    (replaced : Replaced root content middle rendered) {place : List Name}
    (notDockerfile : place ≠ [dockerfileName]) (notTemporary : place ≠ [temporaryName])
    (notTemplate : place ≠ [templateName]) :
    files.get? (root ++ place) = middle.get? (root ++ place) := by
  have apart {name : Name} (differ : place ≠ [name]) : root ++ place ≠ root ++ [name] :=
    fun same => differ (List.append_cancel_left same)
  rw [assembled.finalized.others _ (apart notTemplate),
    replaced.others _ (apart notDockerfile) (apart notTemporary)]

theorem dockerfile_at_call {content : Bytes} {middle : FileSystem}
    (replaced : Replaced root content middle rendered) :
    ∃ executable, files.get? (root ++ [dockerfileName]) = some (.file content executable) := by
  obtain ⟨executable, stands⟩ := replaced.dockerfile
  have differ : root ++ [dockerfileName] ≠ root ++ [templateName] := fun same =>
    absurd (List.append_cancel_left same) (by decide)
  exact ⟨executable, (assembled.finalized.others _ differ).trans stands⟩

theorem no_temporary_at_call {content : Bytes} {middle : FileSystem}
    (replaced : Replaced root content middle rendered) :
    files.get? (root ++ [temporaryName]) = none := by
  have differ : root ++ [temporaryName] ≠ root ++ [templateName] := fun same =>
    absurd (List.append_cancel_left same) (by decide)
  exact (assembled.finalized.others _ differ).trans replaced.temporary

/-- What stood in the context before any file was fetched. -/
theorem of_populated
    (fileOut : world.files.Apart root (request.source.join context.flavour.name.toPath))
    (treeOut : world.files.Apart root (request.source.join sourceTreeName.toPath))
    (regular : ∃ content executable,
      world.files.examine (request.source.join context.flavour.name.toPath) =
        .ok (.file content executable))
    {place : List Name} {entry : Entry} (proper : place ≠ [])
    (notOwn : place ≠ [context.flavour.name])
    (stands : populated.files.get? (root ++ place) = some entry) :
    ∃ names, place = sourceTreeName :: names ∧
      world.files.tree (request.source.join sourceTreeName.toPath) names = some entry := by
  obtain ⟨name, rest, rfl⟩ := List.exists_cons_of_ne_nil proper
  by_cases isTree : name = sourceTreeName
  · subst isTree
    exact ⟨rest, rfl, (assembled.staged.sourceTree treeOut rest).symm.trans stands⟩
  · by_cases isOwn : name = context.flavour.name
    · subst isOwn
      obtain ⟨content, executable, isFile⟩ := regular
      obtain ⟨below, more, rfl⟩ := List.exists_cons_of_ne_nil fun empty : rest = [] =>
        notOwn (by rw [empty])
      rw [assembled.populated_own fileOut, FileSystem.tree_of_not_directory
        (Path.bytes_join_ne_nil (Name.bytes_toPath_ne_nil _)) isFile (by simp)] at stands
      cases stands
    · rw [assembled.populated_nothing fileOut isTree isOwn] at stands
      cases stands

theorem handedOver {content : Bytes} {fetched : List Text} {middle : FileSystem}
    (fileOut : world.files.Apart root (request.source.join context.flavour.name.toPath))
    (treeOut : world.files.Apart root (request.source.join sourceTreeName.toPath))
    (regular : ∃ content executable,
      world.files.examine (request.source.join context.flavour.name.toPath) =
        .ok (.file content executable))
    (isFetched : Fetched world.files root request.libraries fetched populated.files middle)
    (replaced : Replaced root content middle rendered) :
    HandedOver world.files request root content fetched files := by
  have noTemplate := assembled.finalized.template
  have noTemporary := assembled.no_temporary_at_call replaced
  refine ⟨assembled.dockerfile_at_call replaced, noTemplate, noTemporary, ?_, ?_⟩
  · intro names entry stands
    have differ {name : Name} (notTree : sourceTreeName ≠ name) :
        sourceTreeName :: names ≠ [name] := fun same => notTree (List.cons.inj same).1
    rw [assembled.get?_eq replaced (differ (by decide)) (differ (by decide))
      (differ (by decide))]
    by_cases supplied : ∃ found, Supplies world.files request fetched (sourceTreeName :: names) found
    · obtain ⟨found, inner, member, brings⟩ := supplied
      exact ⟨found, isFetched.present inner member _ found brings, .inr ⟨inner, member, brings⟩⟩
    · have stood := (assembled.staged.sourceTree treeOut names).trans stands
      rcases isFetched.others (sourceTreeName :: names) fun inner member found brings =>
          supplied ⟨found, inner, member, brings⟩ with same | ⟨nothing, _⟩
      · exact ⟨entry, same.trans stood, .inl rfl⟩
      · cases nothing.symm.trans stood
  · intro place entry proper notDockerfile stands
    have notTemporary : place ≠ [temporaryName] := by
      rintro rfl
      cases noTemporary.symm.trans stands
    have notTemplate : place ≠ [templateName] := by
      rintro rfl
      cases noTemplate.symm.trans stands
    rw [assembled.get?_eq replaced notDockerfile notTemporary notTemplate] at stands
    by_cases supplied : ∃ inner ∈ fetched, ∃ found,
        Brings world.files request.libraries inner place found
    · obtain ⟨inner, member, found, brings⟩ := supplied
      have same := (isFetched.present inner member place found brings).symm.trans stands
      rw [Option.some.inj same] at brings
      exact .inr (.inl ⟨inner, member, brings⟩)
    · have unsupplied : ∀ inner ∈ fetched, ∀ found,
          ¬ Brings world.files request.libraries inner place found := fun inner member found brings =>
        supplied ⟨inner, member, found, brings⟩
      rcases isFetched.others place unsupplied with
        same | ⟨_, made, inner, member, rest, below, brings⟩
      · refine .inl (assembled.of_populated fileOut treeOut regular proper ?_ (same ▸ stands))
        cases context.flavour
        · exact notTemplate
        · exact notDockerfile
      · have isDirectory := Option.some.inj (stands.symm.trans made)
        exact .inr (.inr ⟨isDirectory, rest, below, inner, member, brings⟩)

end Assembled

/-! ## The call -/

/-- A call comes from a context that was assembled where the request has it. -/
theorem Calls.assembled (calls : Calls request config world context atCall)
    (accepted : config.validate = .ok ()) (noSlash : '/' ∉ config.contextDirectory.toList)
    (nonempty : request.source.bytes ≠ []) {file : Name} {entry : Entry}
    (stands : world.files.examine (request.source.join file.toPath) = .ok entry)
    (keepsOut : KeepsOut world.files request config (request.source.join file.toPath)) :
    ∃ root, ContextAt world.files request config root ∧ ∃ copied populated rendered,
      Assembled world request config context root copied populated rendered atCall.files := by
  have inTree : world.files.tree request.source [file] = some entry :=
    FileSystem.tree_eq_some_iff.2 stands
  obtain ⟨directory, found, isDirectory, _⟩ := FileSystem.locate_of_tree_cons nonempty inTree
  obtain ⟨assembled, run, sameFiles⟩ := calls.assemble_run
  rw [sameFiles]
  -- No tool is called for a context that cannot be looked up, since the reset has failed.
  by_cases nameable : config.Nameable
  · obtain ⟨name, named⟩ := Config.name_of_nameable accepted noSlash nameable
    have contextAt : ContextAt world.files request config (directory ++ [name]) :=
      ⟨directory, name, found, named, rfl⟩
    have leads := FileSystem.leads_of_locate found
    have site : Site world.files request.source directory name :=
      ⟨found, isDirectory, (keepsOut _ contextAt).here.front leads isDirectory⟩
    exact ⟨_, contextAt, (assemble_ends named site).of_ok run⟩
  · obtain ⟨fault, notMissing, failed⟩ :=
      Config.locate_of_not_nameable accepted nameable found isDirectory
    exact ((assemble_unusable_ends notMissing failed).of_ok run).elim

/-! ## An image with a template -/

def sampleTemplate : String :=
  "COPY %%_COMMON/tool%% %%_COMMON/.Dockerfile.tmp%% /"

/-- An image source with a template and, beside it, a library with the files it refers to. -/
def sampleFiles : FileSystem where
  entries := [
    ([imageName], .directory),
    ([imageName, templateName], .file (Path.ofString sampleTemplate).bytes false),
    ([imageName, sourceTreeName], .directory),
    ([imageName, sourceTreeName, Layout.nameOf "main"], .file [1] false),
    ([libraryName], .directory),
    ([libraryName, Layout.nameOf "tool"], .file [2] true),
    ([libraryName, temporaryName], .file [3] false)]
  distinct := by decide
  rooted := by
    simp only [FileSystem.Rooted, FileSystem.find]
    decide

def sampleRequest : Request :=
  ⟨Path.ofString "/image", [Path.ofString "/library"], ["-q"], false⟩

def sampleContext : BuildContext :=
  ⟨Path.ofString "/image/_docker-build", .template⟩

theorem sample_calls :
    ∃ atCall, Calls sampleRequest {} { files := sampleFiles } sampleContext atCall := by
  obtain ⟨atCall, run⟩ : ∃ atCall, (approach sampleRequest {}).run.run { files := sampleFiles } =
      (.ok sampleContext, atCall) :=
    Action.exists_run_of_toOption (by decide +kernel)
  exact ⟨atCall, rfl, run⟩

theorem sample_contextAt {root : Location}
    (contextAt : ContextAt sampleFiles sampleRequest {} root) :
    root = [imageName, contextName] :=
  contextAt.unique ⟨[imageName], contextName, by decide, rfl, rfl⟩

theorem sample_keepsOut (base : Path) (location : Location) (name : Name)
    (found : sampleFiles.locate .target base = .ok location)
    (isDirectory : sampleFiles.get? location = some .directory)
    (avoids : sampleFiles.Avoids [imageName, contextName] base)
    (noLinks : ∀ item ∈ sampleFiles.entries, location ++ [name] <+: item.1 →
      item.2 = .directory ∨ item.2.isFile = true)
    (beside : ¬ [imageName, contextName] <+: location ++ [name] ∧
      ¬ location ++ [name] <+: [imageName, contextName]) :
    KeepsOut sampleFiles sampleRequest {} (base.join name.toPath) := by
  intro root contextAt
  rw [sample_contextAt contextAt]
  exact FileSystem.apart_of_plain (FileSystem.leads_of_locate found) isDirectory avoids
    (FileSystem.plain_of_entries noLinks) beside.1 beside.2

theorem sample_templateOut : KeepsOut sampleFiles sampleRequest {}
    (sampleRequest.source.join templateName.toPath) :=
  sample_keepsOut (Path.ofString "/image") [imageName] templateName (by decide) (by decide)
    (by decide) (by decide) (by decide)

theorem sample_librariesOut : ∀ library ∈ sampleRequest.libraries,
    KeepsOut sampleFiles sampleRequest {} library := by
  intro library member
  rw [List.mem_singleton.1 member]
  exact sample_keepsOut (Path.ofString "/") [] libraryName (by decide) (by decide) (by decide)
    (by decide) (by decide)

/-- Whenever the tool is called, for a source and libraries that keep out of the context, it is
handed what they make of the build. No request has an empty source: it could not be resolved. -/
theorem handed_over (accepted : config.validate = .ok ())
    (noSlash : '/' ∉ config.contextDirectory.toList) (nonempty : request.source.bytes ≠ [])
    (calls : Calls request config world context atCall)
    (regular : ∃ content executable,
      world.files.examine (request.source.join context.flavour.name.toPath) =
        .ok (.file content executable))
    (fileOut : KeepsOut world.files request config
      (request.source.join context.flavour.name.toPath))
    (treeOut : KeepsOut world.files request config (request.source.join sourceTreeName.toPath))
    (librariesOut : ∀ library ∈ request.libraries, KeepsOut world.files request config library) :
    ∃ root, ContextAt world.files request config root ∧
      atCall.files.locate .target context.root = .ok root ∧
      ∃ content fetched, (∀ content' fetched',
          Yields world request config context content' fetched' ↔
            content' = content ∧ fetched' = fetched) ∧
        HandedOver world.files request root content fetched atCall.files := by
  obtain ⟨_, _, isFile⟩ := id regular
  obtain ⟨root, contextAt, copied, populated, rendered, assembled⟩ :=
    calls.assembled accepted noSlash nonempty isFile fileOut
  have librariesApart : LibrariesApart world.files root request.libraries :=
    fun library member => librariesOut library member root contextAt
  obtain ⟨content, fetched, middle, yields, isFetched, replaced⟩ :=
    assembled.replaced (fileOut root contextAt) librariesApart regular
  refine ⟨root, contextAt, assembled.confined.locate, content, fetched, fun _ _ => ?_,
    assembled.handedOver (fileOut root contextAt) (treeOut root contextAt) regular isFetched
      replaced⟩
  constructor
  · exact yields.unique
  · rintro ⟨rfl, rfl⟩
    exact yields

theorem handed_over_sample :
    ∃ atCall, Calls sampleRequest {} { files := sampleFiles } sampleContext atCall ∧
      ∃ root, ContextAt sampleFiles sampleRequest {} root ∧
        ∃ content fetched,
          Yields { files := sampleFiles } sampleRequest {} sampleContext content fetched ∧
          HandedOver sampleFiles sampleRequest root content fetched atCall.files := by
  obtain ⟨atCall, calls⟩ := sample_calls
  have treeOut : KeepsOut sampleFiles sampleRequest {}
      (sampleRequest.source.join sourceTreeName.toPath) :=
    sample_keepsOut (Path.ofString "/image") [imageName] sourceTreeName (by decide) (by decide)
      (by decide) (by decide) (by decide)
  obtain ⟨root, contextAt, _, content, fetched, yields, handedOver⟩ :=
    handed_over (by decide) (by decide) (by decide) calls
      ⟨(Path.ofString sampleTemplate).bytes, false, by decide⟩ sample_templateOut treeOut
      sample_librariesOut
  exact ⟨atCall, calls, root, contextAt, content, fetched, (yields _ _).2 ⟨rfl, rfl⟩, handedOver⟩

end ImageStaging.Build
