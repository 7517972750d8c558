import ImageStaging.Proofs.Build.Handover
import ImageStaging.Proofs.Dependence.Steps
import ImageStaging.Proofs.Request
import ImageStaging.Proofs.Staging.Nowhere

/-!
# All writing is done in the context

A run empties the context, fills it and delivers it. Whatever comes of that, the files differ
afterwards at and below the context only, but for directories on the way to it where nothing was.
For that the path of the source must not lead through the context, and must not turn back once it
has run out: the reset takes a context that it did not find to be missing, and if making the missing
directories brings an old one into reach, the run works in that one and follows the links there.
-/

namespace ImageStaging.Build

open FileSystem (AgreeOff AsksEntry Confined Fresh Grown Site Spells Straight)
open Layout (contextName imageName libraryName)

variable {world : World} {request : Request} {config : Config} {tool : Tool} {directory : Location}
  {files middle other : FileSystem} {name : Name} {root : Location}

/-! ## The parts of a run -/

/-- What a run does until its context is empty. -/
def clear (request : Request) (config : Config) : Action Failure Unit := do
  announce request config
  (Staging.reset (request.contextPath config.contextDirectory)).blaming .staging

/-- What a run does in its empty context, up to the delivery. -/
def furnish (request : Request) (config : Config) : Action Failure BuildContext := do
  let context ← Staging.fill request.source (request.contextPath config.contextDirectory)
  renderTemplate context request
  (finalize context).blaming .staging
  pure context

/-- What a run does once its context is empty. -/
def complete (request : Request) (config : Config) (tool : Tool) : Action Failure BuildContext := do
  let context ← furnish request config
  deliver context request config tool
  pure context

theorem assemble_eq_clear (request : Request) (config : Config) :
    assemble request config = (do
      clear request config
      furnish request config) := by
  unfold assemble clear furnish
  rw [prepare_eq]
  simp only [Staging.stage_eq, bind_assoc, pure_bind]

theorem run_eq_clear (request : Request) (config : Config) (tool : Tool) :
    run request config tool = (do
      clear request config
      complete request config tool) := by
  rw [run_eq_assemble, assemble_eq_clear, bind_assoc]
  rfl

/-! ## Filling and delivering -/

/-- Whatever comes of it, filling and rendering are work in the context. -/
theorem furnish_ends {start : FileSystem}
    (confined : Confined start (request.contextPath config.contextDirectory) root world.files) :
    (furnish request config).Ends world
      (fun context after => context.root = request.contextPath config.contextDirectory ∧
        Confined start (request.contextPath config.contextDirectory) root after.files)
      (fun _ after =>
        Confined start (request.contextPath config.contextDirectory) root after.files) := by
  unfold furnish Staging.fill
  simp only [Action.ends_bind, Action.ends_blaming, Action.ends_note, Action.ends_pure]
  refine (Staging.populate_ends confined).mono ?_ fun _ _ confined => confined
  intro _ populated isPopulated
  refine (Staging.classify_ends request.source).mono ?_ ?_
  · rintro flavour _ ⟨rfl, -⟩
    refine (renderTemplate_ends request isPopulated.confined).mono ?_ fun _ _ confined => confined
    rintro _ rendered ⟨confined, -⟩
    refine (finalize_ends confined).mono ?_ ?_
    · rintro _ after ⟨confined, -⟩
      exact ⟨trivial, confined⟩
    · rintro _ _ rfl
      exact confined
  · rintro _ _ rfl
    exact isPopulated.confined

/-- The tool changes nothing but what is at and below the context that it is given. -/
def KeepsOutside (tool : Tool) : Prop :=
  ∀ (invocation : Invocation) (world : World) (root : Location),
    world.files.locate .target invocation.contextPath = .ok root →
    (tool invocation).Ends world (fun _ after => AgreeOff root world.files after.files)
      (fun _ after => AgreeOff root world.files after.files)

theorem deliver_ends (keeps : KeepsOutside tool) {context : BuildContext}
    (found : world.files.locate .target context.root = .ok root) :
    (deliver context request config tool).Ends world
      (fun _ after => AgreeOff root world.files after.files)
      (fun _ after => AgreeOff root world.files after.files) := by
  unfold deliver
  dsimp only
  split
  · have presents : (present context request config).Keeps (AgreeOff root world.files) :=
      present_keeps context request config
    exact presents world (.refl _ _)
  · simp only [Action.ends_bind, Action.ends_note, Action.ends_modify, Action.ends_blaming]
    exact keeps (invocationOf config request context) _ root found

theorem complete_ends (keeps : KeepsOutside tool)
    (named : Path.ofString config.contextDirectory = name.toPath)
    (fresh : Fresh world.files request.source directory name) :
    (complete request config tool).Ends world
      (fun _ after => AgreeOff (directory ++ [name]) world.files after.files)
      (fun _ after => AgreeOff (directory ++ [name]) world.files after.files) := by
  have confined : Confined world.files (request.contextPath config.contextDirectory)
      (directory ++ [name]) world.files := by
    rw [Request.contextPath, named]
    exact fresh.confined
  unfold complete
  simp only [Action.ends_bind, Action.ends_pure]
  refine (furnish_ends confined).mono ?_ fun _ _ confined => confined.agree
  rintro context filled ⟨isRoot, confined⟩
  have found : filled.files.locate .target context.root = .ok (directory ++ [name]) :=
    isRoot ▸ confined.locate
  exact (deliver_ends keeps found).mono (fun _ _ agree => confined.agree.trans agree)
    fun _ _ agree => confined.agree.trans agree

/-! ## Clearing -/

/-- An empty context has come to stand where the request has it: either it has taken the place of
what was there, or all the way to it was made where nothing was. -/
structure Cleared (files : FileSystem) (request : Request) (config : Config) (directory : Location)
    (name : Name) (other : FileSystem) : Prop where
  named : Path.ofString config.contextDirectory = name.toPath
  fresh : Fresh other request.source directory name
  frame : (ContextAt files request config (directory ++ [name]) ∧
      AgreeOff (directory ++ [name]) files other) ∨
    (files.get? (directory ++ [name]) = none ∧
      Grown files (request.contextPath config.contextDirectory) other)

theorem Cleared.confined (cleared : Cleared files request config directory name other) :
    Confined other (request.contextPath config.contextDirectory) (directory ++ [name]) other := by
  rw [Request.contextPath, cleared.named]
  exact cleared.fresh.confined

theorem announce_accepted (accepted : config.validate = .ok ()) :
    (announce request config).Ends world (fun _ after => after.files = world.files)
      (fun _ _ => False) :=
  (announce_ends request config).mono (fun _ _ same => same) fun _ _ rejected =>
    rejected.1 accepted

section Clearing

variable (accepted : config.validate = .ok ()) (noSlash : '/' ∉ config.contextDirectory.toList)
  (nonempty : request.source.bytes ≠ [])
  (straight : Straight world.files request.source)
  (apart : ∀ root, ContextAt world.files request config root →
    world.files.Avoids root request.source)
include accepted noSlash nonempty straight apart

theorem reset_ends :
    (Staging.reset (request.contextPath config.contextDirectory)).Ends world
      (fun _ after => ∃ directory name,
        Cleared world.files request config directory name after.files)
      (fun _ after => Grown world.files (request.contextPath config.contextDirectory)
        after.files) := by
  have plain := (Config.of_validate accepted).1
  have asks : AsksEntry (Path.ofString config.contextDirectory) :=
    ⟨(Config.pieces_of_isPlainName plain).1, Config.name_or_impossible plain noSlash⟩
  have unchanged : Grown world.files (request.contextPath config.contextDirectory) world.files :=
    .refl _ _
  by_cases found : ∃ directory, world.files.locate .target request.source = .ok directory ∧
      world.files.get? directory = some .directory
  · obtain ⟨directory, found, isDirectory⟩ := found
    rcases asks.2 with ⟨name, named⟩ | steps
    · have contextAt : ContextAt world.files request config (directory ++ [name]) :=
        ⟨directory, name, found, named, rfl⟩
      have site : Site world.files request.source directory name :=
        ⟨found, isDirectory, apart _ contextAt⟩
      rw [Request.contextPath, named]
      refine (Staging.reset_ends site).mono ?_ ?_
      · rintro _ after ⟨checked, cleared⟩
        exact ⟨directory, name, named, site.fresh checked cleared,
          .inl ⟨contextAt, cleared.agreeOff⟩⟩
      · rintro _ _ ⟨rfl, -⟩
        exact .refl _ _
    · obtain ⟨fault, notMissing, failed⟩ := Config.locate_impossible plain steps
        (FileSystem.leads_of_locate found) isDirectory
      refine (Staging.reset_unusable_ends notMissing failed).mono ?_ ?_
      · intro _ _ impossible
        exact impossible.elim
      · rintro _ _ rfl
        exact unchanged
  · have nowhere : ∀ directory, world.files.locate .target request.source = .ok directory →
        world.files.get? directory ≠ some .directory := fun directory located isDirectory =>
      found ⟨directory, located, isDirectory⟩
    refine (Staging.reset_nowhere_ends asks nonempty nowhere straight).mono ?_ ?_
    · rintro _ after ⟨directory, name, founded⟩
      exact ⟨directory, name, founded.named, founded.fresh,
        .inr ⟨founded.nothing, founded.grown⟩⟩
    · intro _ _ grown
      exact grown

theorem clear_ends :
    (clear request config).Ends world
      (fun _ after => ∃ directory name,
        Cleared world.files request config directory name after.files)
      (fun _ after => Grown world.files (request.contextPath config.contextDirectory)
        after.files) := by
  unfold clear
  simp only [Action.ends_bind, Action.ends_blaming]
  refine (announce_accepted accepted).mono ?_ fun _ _ impossible => impossible.elim
  intro _ announced same
  rw [← same] at straight apart ⊢
  exact reset_ends accepted noSlash nonempty straight apart

end Clearing

/-! ## What a run leaves alone -/

/-- Entries that are not at or below the context are as they were, but for directories that the path
of the context spells and that have been made where nothing was. A context that could not be found
before is where it is found afterwards. -/
def OnlyContext (files : FileSystem) (request : Request) (config : Config) (other : FileSystem) :
    Prop :=
  ∀ place, other.get? place = files.get? place ∨
    (∃ root, ContextAt files request config root ∧ root <+: place) ∨
    (files.get? place = none ∧ ((∃ root, ContextAt other request config root ∧ root <+: place) ∨
      (other.get? place = some .directory ∧
        Spells files (request.contextPath config.contextDirectory) place)))

theorem onlyContext_of_grown
    (grown : Grown files (request.contextPath config.contextDirectory) other) :
    OnlyContext files request config other := by
  intro place
  rcases grown place with same | ⟨nothing, made, spells⟩
  · exact .inl same
  · exact .inr (.inr ⟨nothing, .inr ⟨made, spells⟩⟩)

/-- Work in the context after it was cleared. -/
theorem Cleared.onlyContext (cleared : Cleared files request config directory name middle)
    (agree : AgreeOff (directory ++ [name]) middle other) :
    OnlyContext files request config other := by
  have contextThen : ContextAt other request config (directory ++ [name]) :=
    ⟨directory, name, (cleared.fresh.toSite.agree agree).found, cleared.named, rfl⟩
  intro place
  by_cases inside : directory ++ [name] <+: place
  · rcases cleared.frame with ⟨contextAt, -⟩ | ⟨nothing, -⟩
    · exact .inr (.inl ⟨_, contextAt, inside⟩)
    · exact .inr (.inr ⟨FileSystem.get?_below_of_nothing nothing inside,
        .inl ⟨_, contextThen, inside⟩⟩)
  · rw [agree.get? place inside]
    rcases cleared.frame with ⟨-, agree'⟩ | ⟨-, grown⟩
    · exact .inl (agree'.get? place inside)
    · rcases grown place with same | ⟨nothing, made, spells⟩
      · exact .inl same
      · exact .inr (.inr ⟨nothing, .inr ⟨made, spells⟩⟩)

theorem OnlyContext.kept (only : OnlyContext files request config other)
    (contextAt : ContextAt files request config root) {place : Location} {entry : Entry}
    (outside : ¬ root <+: place) (stands : files.get? place = some entry) :
    other.get? place = some entry := by
  rcases only place with same | ⟨root', contextAt', inside⟩ | ⟨nothing, -⟩
  · rw [same, stands]
  · exact absurd (contextAt.unique contextAt' ▸ inside) outside
  · rw [stands] at nothing
    contradiction

/-! ## An image with a link in the place of its context -/

def linkedContextFiles : FileSystem :=
  sampleFiles.place [imageName, contextName] (.link (Path.ofString "../library"))

theorem linked_agree : AgreeOff [imageName, contextName] sampleFiles linkedContextFiles :=
  .place _ _ _

section Sample

variable (agree : AgreeOff [imageName, contextName] sampleFiles files)
include agree

theorem sample_site : Site files sampleRequest.source [imageName] contextName := by
  have site : Site sampleFiles sampleRequest.source [imageName] contextName :=
    ⟨by decide, by decide, by decide⟩
  exact site.agree agree

theorem sample_contextThere : ContextAt files sampleRequest {} [imageName, contextName] :=
  ⟨[imageName], contextName, (sample_site agree).found, rfl, rfl⟩

theorem sample_apart (contextAt : ContextAt files sampleRequest {} root) :
    files.Avoids root sampleRequest.source := by
  rw [← (sample_contextThere agree).unique contextAt]
  exact (sample_site agree).avoids

end Sample

/-- Every run, however it ends, leaves alone what is not at or below the context. A context that has
been assembled is a directory without links, so what stood in its place was replaced, be it a link.
The path of the source does not lead through the context and does not turn back once it has run out,
and the tool keeps to its context. -/
theorem writes_confined (accepted : config.validate = .ok ())
    (noSlash : '/' ∉ config.contextDirectory.toList) (nonempty : request.source.bytes ≠ [])
    (straight : Straight world.files request.source)
    (apart : ∀ root, ContextAt world.files request config root →
      world.files.Avoids root request.source)
    (keeps : KeepsOutside tool) :
    (run request config tool).Ends world
        (fun _ after => OnlyContext world.files request config after.files)
        (fun _ after => OnlyContext world.files request config after.files) ∧
      (assemble request config).Ends world
        (fun _ after => ∃ root, ContextAt after.files request config root ∧
          after.files.get? root = some .directory ∧ after.files.Plain root)
        (fun _ _ => True) := by
  have clears := clear_ends accepted noSlash nonempty straight apart
  constructor
  · rw [run_eq_clear, Action.ends_bind]
    refine clears.mono ?_ fun _ _ grown => onlyContext_of_grown grown
    rintro _ middle ⟨directory, name, cleared⟩
    exact (complete_ends keeps cleared.named cleared.fresh).mono
      (fun _ _ agree => cleared.onlyContext agree) fun _ _ agree => cleared.onlyContext agree
  · rw [assemble_eq_clear, Action.ends_bind]
    refine clears.mono ?_ fun _ _ _ => trivial
    rintro _ middle ⟨directory, name, cleared⟩
    refine (furnish_ends cleared.confined).mono ?_ fun _ _ _ => trivial
    rintro _ after ⟨-, confined⟩
    refine ⟨directory ++ [name], ?_, confined.isDirectory, confined.plain⟩
    exact ⟨directory, name, (cleared.fresh.toSite.agree confined.agree).found, cleared.named, rfl⟩

/-- What the link led to is still there. -/
theorem writes_confined_link :
    (run sampleRequest {} fun _ => pure ()).Ends { files := linkedContextFiles }
      (fun _ after => ∀ place entry, [libraryName] <+: place →
        linkedContextFiles.get? place = some entry → after.files.get? place = some entry)
      (fun _ after => ∀ place entry, [libraryName] <+: place →
        linkedContextFiles.get? place = some entry → after.files.get? place = some entry) := by
  have agree := linked_agree
  -- Only that the link stands where it does matters from here on.
  generalize linkedContextFiles = files at agree ⊢
  have contextAt := sample_contextThere agree
  have keeps : KeepsOutside fun _ => pure () := fun _ _ _ _ => AgreeOff.refl _ _
  have outside : ∀ place, [libraryName] <+: place → ¬ [imageName, contextName] <+: place := by
    rintro _ ⟨rest, rfl⟩ inContext
    exact absurd (List.cons_prefix_cons.1 inContext).1 (by decide)
  have straight := FileSystem.straight_of_locate (sample_site agree).found
  have confined := (@writes_confined { files } sampleRequest {} _ (by decide) (by decide)
    (by decide) straight (fun _ => sample_apart agree) keeps).1
  exact confined.mono
    (fun _ _ only place _ inLibrary stands => only.kept contextAt (outside place inLibrary) stands)
    fun _ _ only place _ inLibrary stands => only.kept contextAt (outside place inLibrary) stands

end ImageStaging.Build
