import ImageStaging.Proofs.Variable.Origin

/-!
# What stops a template from being resolved

Once a template is staged, its references are fetched in the order of the document, then the
sources of variables are read in their order, and then the placeholders that the file pass left are
given values in the order of the document. The first of these that fails ends the run with its
fault, before the Dockerfile is written and before anything is printed or started or asked of
storage. If none does, only the writing of the Dockerfile can still fail.
-/

namespace ImageStaging.Build

open Template (fetch references resolveVariables_ends substituteVariables variableName withPaths)
open VariableSource (firstFault?)
open ImageStaging.Action (Ends OnFiles run_bind_of_error run_bind_of_ok)

variable {world staged middle : World} {context : BuildContext} {request : Request}
  {config : Config} {template withFiles : Text}

/-- What rendering does after the pass over the file references. -/
def renderVariables (context : BuildContext) (request : Request) (withFiles : Text) :
    Action Failure Text := do
  let table ← (VariableSource.aggregate request.source request.libraries).blaming .variables
  if table.isEmpty then
    Action.note ⟨.building, .debug, "no template variables defined in source or library paths", []⟩
  publish context withFiles table

/-- The references are fetched one after the other, none failing. -/
def Fetches (request : Request) (context : BuildContext) (inners : List Text)
    (staged middle : World) : Prop :=
  (inners.forM (fetch request.libraries context.root)).run.run staged = (.ok ⟨⟩, middle)

/-- A placeholder has no value, or an empty one. -/
def lacksValue (table : VariableTable) (inner : Text) : Bool :=
  (table.get? (variableName inner)).getD [] = []

/-- Why the variables of a text cannot be resolved over some files. A source that cannot be read
comes before any placeholder. -/
inductive Unresolvable (request : Request) (withFiles : Text) (files : FileSystem) : Failure → Prop
  | source {fault : VariableFault}
      (first : firstFault? files request.source request.libraries = some fault) :
      Unresolvable request withFiles files (.variables fault)
  | placeholder {table : VariableTable} {inner : Text}
      (collected : (VariableSource.aggregate request.source request.libraries).answer files =
        .ok table)
      (first : (references .variable withFiles).find? (lacksValue table) = some inner) :
      Unresolvable request withFiles files (.variableReference (variableName inner))

/-- Why a staged template cannot be resolved, and the files that are left. A reference that cannot
be fetched, those before it having been fetched, comes before all else. -/
inductive Stops (request : Request) (context : BuildContext) (template : Text) (staged : World) :
    Failure → FileSystem → Prop
  | reference {front back : List Text} {inner : Text} {middle stopped : World} {fault : Failure}
      (split : references .file template = front ++ inner :: back)
      (fetched : Fetches request context front staged middle)
      (fails : (fetch request.libraries context.root inner).run.run middle =
        (.error fault, stopped)) :
      Stops request context template staged fault stopped.files
  | variablePass {middle : World} {fault : Failure}
      (fetched : Fetches request context (references .file template) staged middle)
      (unresolvable : Unresolvable request (withPaths template) middle.files fault) :
      Stops request context template staged fault middle.files

/-! ## The pass over the variables -/

theorem lacksValue_eq (table : VariableTable) (inner : Text) :
    lacksValue table inner = (Template.value? table inner).isNone := by
  unfold lacksValue Template.value?
  cases table.get? (variableName inner) with
  | none => rfl
  | some value => by_cases empty : value = [] <;> simp [empty]

theorem substituteVariables_eq_error_iff {table : VariableTable} {name : Text} :
    substituteVariables table withFiles = .error name ↔ ∃ inner,
      (references .variable withFiles).find? (lacksValue table) = some inner ∧
        variableName inner = name := by
  have same : lacksValue table = fun inner => (Template.value? table inner).isNone :=
    funext (lacksValue_eq table)
  rw [same, Template.substituteVariables_eq_error_iff_find?]

/-- Collecting the variables gives what it gives over the files, and leaves them alone. -/
theorem aggregate_run (source : Path) (libraries : List Path) (world : World) :
    ∃ after, (VariableSource.aggregate source libraries).run.run world =
        ((VariableSource.aggregate source libraries).answer world.files, after) ∧
      after.files = world.files := by
  have given := (VariableSource.onFiles_aggregate source libraries).fst_run world
  have ends : (VariableSource.aggregate source libraries).Ends world
      (fun _ after => world.files = after.files) (fun _ after => world.files = after.files) :=
    VariableSource.aggregate_keeps source libraries world rfl
  unfold Ends at ends
  generalize (VariableSource.aggregate source libraries).run.run world = ending at given ends
  obtain ⟨result, after⟩ := ending
  refine ⟨after, Prod.ext given rfl, ?_⟩
  cases result with
  | ok table => exact ends.symm
  | error fault => exact ends.symm

theorem answer_of_firstFault? {files : FileSystem} {source : Path} {libraries : List Path}
    {fault : VariableFault} (first : firstFault? files source libraries = some fault) :
    (VariableSource.aggregate source libraries).answer files = .error fault := by
  have ends := VariableSource.aggregate_stops source libraries (rfl : World.files { files } = files)
  unfold Action.answer
  unfold Ends at ends
  split at ends
  · cases first.symm.trans ends.2
  · rename_i cause _ run
    rw [run, Option.some.inj (first.symm.trans ends.2)]

theorem firstFault?_of_answer {files : FileSystem} {source : Path} {libraries : List Path}
    {fault : VariableFault}
    (given : (VariableSource.aggregate source libraries).answer files = .error fault) :
    firstFault? files source libraries = some fault := by
  have ends := VariableSource.aggregate_stops source libraries (rfl : World.files { files } = files)
  unfold Action.answer at given
  unfold Ends at ends
  split at ends
  · rename_i run
    rw [run] at given
    cases given
  · rename_i cause _ run
    rw [run] at given
    cases given
    exact ends.2

/-- Writing the Dockerfile is the last thing that publishing does with the files. -/
def Writes (context : BuildContext) (dockerfile : Text) (files : FileSystem)
    (result : Except StagingFault Unit) (after : World) : Prop :=
  ∃ writing : World, writing.files = files ∧
    (Replacement.replace context.dockerfilePath (Utf8.encode dockerfile)).run.run writing =
      (result, after)

/-- Once the variables are collected, a placeholder without a value ends the run, and otherwise only
the writing of the Dockerfile can. -/
theorem publish_stops (context : BuildContext) (withFiles : Text) (table : VariableTable)
    (world : World) :
    (publish context withFiles table).Ends world
      (fun text _ => substituteVariables table withFiles = .ok text)
      (fun fault after =>
        (∃ name, substituteVariables table withFiles = .error name ∧
          fault = .variableReference name ∧ after.files = world.files ∧ world.SameBeside after) ∨
        ∃ text cause, substituteVariables table withFiles = .ok text ∧ fault = .staging cause ∧
          Writes context text world.files (.error cause) after) := by
  unfold publish
  rw [Action.ends_bind]
  refine ((Action.ends_run _).and (resolveVariables_ends withFiles table)).mono ?_ ?_
  · rintro text resolved ⟨-, same, isText⟩
    simp only [Action.ends_bind, Action.ends_blaming, Action.ends_note, Action.ends_pure]
    refine (Action.ends_run _).mono (fun _ _ _ => isText) fun cause after run => ?_
    exact .inr ⟨text, cause, isText, rfl, resolved, same, run⟩
  · rintro fault after ⟨run, same, name, missing, rfl⟩
    exact .inl ⟨name, missing, rfl, same,
      (Template.onFiles_resolveVariables withFiles table).beside_of_run run⟩

/-- What the pass over the variables comes to once they are collected. -/
theorem renderVariables_run (context : BuildContext) (withFiles : Text) {table : VariableTable}
    (collected : (VariableSource.aggregate request.source request.libraries).answer world.files =
      .ok table) :
    ∃ begun : World, begun.files = world.files ∧ world.SameBeside begun ∧
      (renderVariables context request withFiles).run.run world =
        (publish context withFiles table).run.run begun := by
  obtain ⟨after, run, same⟩ := aggregate_run request.source request.libraries world
  rw [collected] at run
  have collects : ((VariableSource.aggregate request.source request.libraries).blaming
      Failure.variables).run.run world = (.ok table, after) := by
    rw [Action.run_blaming, run]
  have beside := (VariableSource.onFiles_aggregate request.source request.libraries).beside_of_run run
  unfold renderVariables
  rw [run_bind_of_ok collects]
  dsimp only
  split
  · exact ⟨{ after with log := after.log ++ [_] }, same,
      ⟨⟨beside.output, beside.room, beside.toolErrors, beside.launches⟩, beside.storage⟩, rfl⟩
  · exact ⟨after, same, beside, rfl⟩

theorem renderVariables_of_unresolvable (context : BuildContext) {fault : Failure}
    (unresolvable : Unresolvable request withFiles world.files fault) :
    ∃ after, (renderVariables context request withFiles).run.run world = (.error fault, after) ∧
      after.files = world.files ∧ world.SameBeside after := by
  cases unresolvable with
  | source first =>
    obtain ⟨after, run, same⟩ := aggregate_run request.source request.libraries world
    have beside :=
      (VariableSource.onFiles_aggregate request.source request.libraries).beside_of_run run
    rw [answer_of_firstFault? first] at run
    refine ⟨after, run_bind_of_error ?_, same, beside⟩
    rw [Action.run_blaming, run]
  | @placeholder table inner collected first =>
    obtain ⟨begun, same, beside, run⟩ := renderVariables_run context withFiles collected
    have missing := substituteVariables_eq_error_iff.2 ⟨inner, first, rfl⟩
    have ends := publish_stops context withFiles table begun
    rw [run]
    unfold Ends at ends
    generalize (publish context withFiles table).run.run begun = ending at ends ⊢
    obtain ⟨result, after⟩ := ending
    cases result with
    | ok text => cases missing.symm.trans ends
    | error fault =>
      rcases ends with ⟨name, named, rfl, kept, further⟩ | ⟨text, cause, isText, -⟩
      · obtain rfl := Except.error.inj (missing.symm.trans named)
        exact ⟨after, rfl, kept.trans same, beside.trans further⟩
      · cases missing.symm.trans isText

/-- Where nothing is in the way of the variables, only the writing of the Dockerfile can fail. -/
theorem renderVariables_of_resolvable (context : BuildContext)
    (resolvable : ∀ fault, ¬ Unresolvable request withFiles world.files fault) :
    ∃ table text, (VariableSource.aggregate request.source request.libraries).answer world.files =
        .ok table ∧ substituteVariables table withFiles = .ok text ∧
      (renderVariables context request withFiles).Ends world (fun rendered _ => rendered = text)
        (fun fault after => ∃ cause, fault = .staging cause ∧
          Writes context text world.files (.error cause) after) := by
  cases collected :
      (VariableSource.aggregate request.source request.libraries).answer world.files with
  | error fault => exact absurd (.source (firstFault?_of_answer collected)) (resolvable _)
  | ok table =>
    cases substituted : substituteVariables table withFiles with
    | error name =>
      obtain ⟨inner, first, -⟩ := substituteVariables_eq_error_iff.1 substituted
      exact absurd (.placeholder collected first) (resolvable _)
    | ok text =>
      refine ⟨table, text, rfl, substituted, ?_⟩
      obtain ⟨begun, same, -, run⟩ := renderVariables_run context withFiles collected
      have ends := publish_stops context withFiles table begun
      rw [same] at ends
      unfold Ends at ends ⊢
      rw [run]
      split at ends
      · exact (Except.ok.inj (substituted.symm.trans ends)).symm
      · rcases ends with ⟨name, missing, -⟩ | ⟨text', cause, isText, written⟩
        · cases substituted.symm.trans missing
        · obtain rfl := Except.ok.inj (substituted.symm.trans isText)
          exact ⟨cause, written⟩

/-! ## The whole of rendering -/

theorem render_eq (context : BuildContext) (request : Request) :
    render context request = (do
      let template ← (Action.look (·.readText context.templatePath)).blaming fun fault =>
        .staging (.readTemplate context.templatePath fault)
      let withFiles ← Template.resolveFiles template request.libraries context.root
      renderVariables context request withFiles) := rfl

/-- Rendering a template that can be read begins with fetching its references. -/
theorem render_run (readable : staged.files.readText context.templatePath = .ok template) :
    (render context request).run.run staged =
      ((references .file template).forM (fetch request.libraries context.root) >>= fun _ =>
        renderVariables context request (withPaths template)).run.run staged := by
  have reads : ((Action.look (·.readText context.templatePath)).blaming fun fault =>
      Failure.staging (.readTemplate context.templatePath fault)).run.run staged =
        (.ok template, staged) := by
    rw [Action.run_blaming, Action.run_look, readable]
  rw [render_eq, run_bind_of_ok reads, Template.resolveFiles_eq]
  simp only [bind_assoc, pure_bind]

theorem render_of_stops {fault : Failure} {files : FileSystem}
    (readable : staged.files.readText context.templatePath = .ok template)
    (stops : Stops request context template staged fault files) :
    ∃ after, (render context request).run.run staged = (.error fault, after) ∧
      after.files = files ∧ staged.SameBeside after := by
  have onFiles (inners : List Text) :
      (inners.forM (fetch request.libraries context.root)).OnFiles :=
    OnFiles.forM fun inner _ => Template.onFiles_fetch request.libraries context.root inner
  rw [render_run readable]
  cases stops with
  | @reference front back inner middle stopped fault split fetched fails =>
    have stops : ((references .file template).forM
        (fetch request.libraries context.root)).run.run staged = (.error fault, stopped) := by
      rw [split]
      exact Action.run_forM_of_stop fetched fails
    exact ⟨stopped, run_bind_of_error stops, rfl, (onFiles _).beside_of_run stops⟩
  | variablePass fetched unresolvable =>
    obtain ⟨after, run, same, beside⟩ := renderVariables_of_unresolvable context unresolvable
    exact ⟨after, (run_bind_of_ok fetched).trans run, same,
      ((onFiles _).beside_of_run fetched).trans beside⟩

theorem onFiles_stageUp (request : Request) (config : Config) :
    (stageUp request config).OnFiles :=
  (onFiles_announce request config).bind fun _ => Staging.onFiles_stage _ _

/-- For every template that is staged and can be read: what stops its resolution first, in the order
of the document for references, of reading for the sources of variables and of the document for
placeholders, is what the run fails with, whatever the tool is. Then nothing has been printed or
started or asked of storage, and the files are as fetching left them, the Dockerfile not having been
written. If nothing stops it, rendering fails in the writing of the Dockerfile or not at all. -/
theorem resolution_priority (staging : (stageUp request config).run.run world = (.ok context, staged))
    (rendered : context.flavour = .template)
    (readable : staged.files.readText context.templatePath = .ok template) :
    (∀ fault files, Stops request context template staged fault files →
      ∀ tool, ∃ after, (run request config tool).run.run world = (.error fault, after) ∧
        after.files = files ∧ world.SameBeside after) ∧
    ((∀ fault files, ¬ Stops request context template staged fault files) →
      ∃ middle table text, Fetches request context (references .file template) staged middle ∧
        (VariableSource.aggregate request.source request.libraries).answer middle.files =
          .ok table ∧
        substituteVariables table (withPaths template) = .ok text ∧
        (render context request).Ends staged (fun dockerfile _ => dockerfile = text)
          (fun fault after => ∃ cause, fault = .staging cause ∧
            Writes context text middle.files (.error cause) after)) := by
  constructor
  · intro fault files stops tool
    obtain ⟨after, renders, same, beside⟩ := render_of_stops readable stops
    have prepares : (prepare request config).run.run world = (.error fault, after) := by
      rw [prepare_eq_stageUp, run_bind_of_ok staging, renderTemplate, if_pos rendered]
      exact run_bind_of_error (run_bind_of_error renders)
    exact ⟨after, run_bind_of_error prepares, same,
      ((onFiles_stageUp request config).beside_of_run staging).trans beside⟩
  · intro unstopped
    rcases Action.forM_runs_or_stops (references .file template)
      (fetch request.libraries context.root) staged with ⟨middle, fetched⟩ |
      ⟨front, inner, back, middle, fault, stopped, split, fetched, fails⟩
    · obtain ⟨table, text, collected, substituted, ends⟩ :=
        renderVariables_of_resolvable context fun fault unresolvable =>
          unstopped fault middle.files (.variablePass fetched unresolvable)
      refine ⟨middle, table, text, fetched, collected, substituted, ?_⟩
      unfold Ends at ends ⊢
      rw [render_run readable, run_bind_of_ok fetched]
      exact ends
    · exact absurd (.reference split fetched fails) (unstopped fault stopped.files)

/-! ## An image in which all goes wrong -/

def faultyTemplate : Text :=
  "%%_COMMON/a%%%%_COMMON/b%%%%V%%".toList

/-- The library has only the first of the two shared files, the variables are not UTF-8, and there
is no value for the placeholder. -/
def faultyFiles : FileSystem where
  entries :=
    let image := Layout.imageName
    let library := Layout.libraryName
    [([image], .directory),
      ([image, Layout.templateName], .file (Utf8.encode faultyTemplate) false),
      ([image, Layout.variablesFileName], .file [0xFF] false),
      ([library], .directory),
      ([library, Layout.sharedName], .file [] false)]
  distinct := by decide
  rooted := by
    simp only [FileSystem.Rooted, FileSystem.find]
    decide

def faultyRequest : Request :=
  ⟨Path.ofString "/image", [Path.ofString "/library"], ["-q"], false⟩

def faultyContext : BuildContext :=
  ⟨Path.ofString "/image/_docker-build", .template⟩

def faultyStaged : World :=
  ((stageUp faultyRequest {}).run.run { files := faultyFiles }).2

def faultyFetched : World :=
  (([['a']].forM (fetch faultyRequest.libraries faultyContext.root)).run.run faultyStaged).2

theorem resolution_priority_faulty :
    (stageUp faultyRequest {}).run.run { files := faultyFiles } =
        (.ok faultyContext, faultyStaged) ∧
      ∀ tool, ∃ after, (run faultyRequest {} tool).run.run { files := faultyFiles } =
          (.error (.fileReference "_COMMON/b".toList .inNoLibrary), after) ∧
        World.SameBeside { files := faultyFiles } after := by
  have staging : (stageUp faultyRequest {}).run.run { files := faultyFiles } =
      (.ok faultyContext, faultyStaged) := by
    rw [Action.run_eq_of_fst (.ok faultyContext) (by decide +kernel), faultyStaged]
  have readable : faultyStaged.files.readText faultyContext.templatePath = .ok faultyTemplate := by
    decide +kernel
  have split : references .file faultyTemplate = [['a']] ++ ['b'] :: [] := by decide +kernel
  have fetched : Fetches faultyRequest faultyContext [['a']] faultyStaged faultyFetched := by
    rw [Fetches, Action.run_eq_of_fst (.ok ⟨⟩) (by decide +kernel), faultyFetched]
  have fails : ((fetch faultyRequest.libraries faultyContext.root ['b']).run.run
      faultyFetched).1 = .error (.fileReference "_COMMON/b".toList .inNoLibrary) := by
    decide +kernel
  refine ⟨staging, fun tool => ?_⟩
  obtain ⟨after, run, -, beside⟩ := (resolution_priority staging rfl readable).1 _ _
    (.reference split fetched (Action.run_eq_of_fst _ fails)) tool
  exact ⟨after, run, beside⟩

end ImageStaging.Build
