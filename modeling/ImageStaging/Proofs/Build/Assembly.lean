import ImageStaging.Proofs.Build.Rendering
import ImageStaging.Proofs.Staging.Stage

/-!
# What assembling a context does

A run assembles its context before anything else: the context is staged, rendered if it has a
template, and then loses the template. All of this is work in the context, be it successful or not.
-/

namespace ImageStaging.Build

open FileSystem (AgreeOff Confined Pruned Site)
open Layout (templateName)
open Staging (Staged)
open ImageStaging.Action (Ends)

variable {world : World} {start : FileSystem} {context : BuildContext} {root directory : Location}
  {request : Request} {config : Config} {name : Name}

/-- The template has gone from the context and nothing else is different. -/
structure Finalized (root : Location) (files other : FileSystem) : Prop where
  template : other.get? (root ++ [templateName]) = none
  others : ∀ place, place ≠ root ++ [templateName] → other.get? place = files.get? place

theorem finalize_ends (confined : Confined start context.root root world.files) :
    (finalize context).Ends world
      (fun _ after => Confined start context.root root after.files ∧
        Finalized root world.files after.files)
      (fun _ after => after = world) := by
  unfold finalize
  simp only [Action.ends_bind, Action.ends_attempt, Action.ends_edit]
  have descends := (Path.Descends.refl context.root).join_name templateName
  refine ⟨fun step removed => ?_, fun fault failed => ?_⟩
  · obtain ⟨rfl, notDirectory⟩ := confined.removeFile_ok descends removed
    have pruned : Pruned (root ++ [templateName]) world.files
        (world.files.prune (root ++ [templateName])) := .prune _ (by simp)
    refine ⟨confined.pruned (by simp) notDirectory pruned, pruned.at_root, fun place differ => ?_⟩
    refine (pruned.get? place).trans ?_
    split
    · next below =>
      obtain ⟨rest, rfl⟩ := below
      exact (FileSystem.get?_below_of_not_directory notDirectory (by simpa using differ)).symm
    · rfl
  · cases fault with
    | notFound => exact ⟨confined, confined.removeFile_notFound failed, fun _ _ => rfl⟩
    | _ => rfl

/-! ## The steps of preparing -/

/-- The first step of preparing: the configuration is checked and the request is logged. -/
def announce (request : Request) (config : Config) : Action Failure Unit := do
  if let .error fault := config.validate then throw (.config fault)
  Action.note ⟨.building, .info, "source path", [("source", request.source.display)]⟩
  for library in request.libraries do
    Action.note ⟨.building, .info, "library path", [("library", library.display)]⟩

/-- The last step of preparing. -/
def renderTemplate (context : BuildContext) (request : Request) : Action Failure Unit := do
  if context.flavour = .template then
    let _ ← render context request

theorem prepare_eq (request : Request) (config : Config) :
    prepare request config = (do
      announce request config
      let context ← Staging.stage request.source (request.contextPath config.contextDirectory)
      renderTemplate context request
      pure context) := by
  unfold prepare announce renderTemplate
  cases config.validate with
  | error fault => rfl
  | ok =>
    simp only [bind_assoc]
    refine bind_congr fun _ => bind_congr fun _ => bind_congr fun context => ?_
    split <;> simp

/-- What a run does before it renders. -/
def stageUp (request : Request) (config : Config) : Action Failure BuildContext := do
  announce request config
  Staging.stage request.source (request.contextPath config.contextDirectory)

theorem prepare_eq_stageUp (request : Request) (config : Config) :
    prepare request config = (do
      let context ← stageUp request config
      renderTemplate context request
      pure context) := by
  rw [prepare_eq, stageUp, bind_assoc]

theorem announce_ends (request : Request) (config : Config) :
    (announce request config).Ends world (fun _ after => after.files = world.files)
      (fun _ after => config.validate ≠ .ok () ∧ after.files = world.files) := by
  unfold announce
  cases config.validate with
  | error fault => exact ⟨by simp, rfl⟩
  | ok =>
    simp only [Action.ends_bind, Action.ends_note]
    refine Ends.forIn (fun _ after => after.files = world.files) rfl ?_
    intro _ _ _ after same
    simp only [Action.ends_bind, Action.ends_note, Action.ends_pure]
    exact ⟨trivial, same⟩

theorem stageUp_ends (named : Path.ofString config.contextDirectory = name.toPath)
    (site : Site world.files request.source directory name) :
    (stageUp request config).Ends world
      (fun context after => ∃ copied,
        Staged world.files request.source (directory ++ [name]) copied context after.files)
      (fun _ after => AgreeOff (directory ++ [name]) world.files after.files) := by
  unfold stageUp
  rw [Action.ends_bind, Request.contextPath, named]
  refine (announce_ends request config).mono ?_ ?_
  · intro _ announced same
    rw [← same] at site ⊢
    exact (Staging.stage_ends site).mono (fun _ _ staged => staged.2) fun _ _ agree => agree
  · rintro _ after ⟨_, same⟩
    rw [same]
    exact .refl _ _

/-- What rendering does to a staged context, which is nothing if there is no template. -/
def Completed (start : FileSystem) (request : Request) (context : BuildContext) (root : Location)
    (staged : World) (other : FileSystem) : Prop :=
  match context.flavour with
  | .plain => other = staged.files
  | .template => ∃ template middle text,
      staged.files.readText context.templatePath = .ok template ∧
        Rendered start request context root template staged middle text other

theorem renderTemplate_ends (request : Request)
    (confined : Confined start context.root root world.files) :
    (renderTemplate context request).Ends world
      (fun _ after => Confined start context.root root after.files ∧
        Completed start request context root world after.files)
      (fun _ after => Confined start context.root root after.files) := by
  unfold renderTemplate
  unfold Completed
  cases context.flavour with
  | plain => exact ⟨confined, rfl⟩
  | template =>
    simp only [if_true, Action.ends_bind, Action.ends_pure]
    refine (render_ends request confined).mono ?_ fun _ _ confined => confined
    rintro text after ⟨confined, template, middle, isTemplate, rendered⟩
    exact ⟨confined, template, middle, text, isTemplate, rendered⟩

/-! ## Assembling -/

/-- What a run does before it delivers. -/
def assemble (request : Request) (config : Config) : Action Failure BuildContext := do
  let context ← prepare request config
  (finalize context).blaming .staging
  pure context

/-- A context assembled in a world, the steps on the way included. -/
structure Assembled (world : World) (request : Request) (config : Config)
    (context : BuildContext) (root : Location) (copied : Option Flavour) (populated : World)
    (rendered files : FileSystem) : Prop where
  confined : Confined world.files context.root root files
  staging : (stageUp request config).run.run world = (.ok context, populated)
  staged : Staged world.files request.source root copied context populated.files
  completed : Completed world.files request context root populated rendered
  finalized : Finalized root rendered files

theorem assemble_ends (named : Path.ofString config.contextDirectory = name.toPath)
    (site : Site world.files request.source directory name) :
    (assemble request config).Ends world
      (fun context after => ∃ copied populated rendered,
        Assembled world request config context (directory ++ [name]) copied populated rendered
          after.files)
      (fun _ after => AgreeOff (directory ++ [name]) world.files after.files) := by
  unfold assemble
  rw [prepare_eq_stageUp]
  simp only [Action.ends_bind, Action.ends_blaming, Action.ends_pure]
  refine ((Action.ends_run _).and (stageUp_ends named site)).mono ?_ fun _ _ stopped => stopped.2
  rintro context populated ⟨staging, copied, staged⟩
  refine (renderTemplate_ends request staged.confined).mono ?_ fun _ _ confined => confined.agree
  rintro _ rendered ⟨confined, completed⟩
  refine (finalize_ends confined).mono ?_ ?_
  · rintro _ after ⟨confined, finalized⟩
    exact ⟨copied, populated, rendered.files, confined, staging, staged, completed, finalized⟩
  · rintro _ _ rfl
    exact confined.agree

/-- Where no reset succeeds, no context is assembled, and the files are left as the reset leaves
them. -/
theorem assemble_of_reset (property : FileSystem → Prop)
    (rejected : config.validate ≠ .ok () → property world.files)
    (resets : ∀ announced : World, announced.files = world.files →
      (Staging.reset (request.contextPath config.contextDirectory)).Ends announced
        (fun _ _ => False) (fun _ after => property after.files)) :
    (assemble request config).Ends world (fun _ _ => False)
      (fun _ after => property after.files) := by
  unfold assemble
  rw [prepare_eq]
  unfold Staging.stage
  simp only [Action.ends_bind, Action.ends_blaming]
  refine (announce_ends request config).mono ?_ ?_
  · intro _ announced same
    exact (resets announced same).mono (fun _ _ impossible => impossible.elim)
      fun _ _ holds => holds
  · rintro _ after ⟨notAccepted, same⟩
    rw [same]
    exact rejected notAccepted

/-- No context is assembled at a path that cannot be looked up, and nothing is changed. -/
theorem assemble_unusable_ends {fault : FileFault} (notMissing : fault ≠ .notFound)
    (failed : world.files.locate .entry (request.contextPath config.contextDirectory) =
      .error fault) :
    (assemble request config).Ends world (fun _ _ => False)
      (fun _ after => after.files = world.files) := by
  refine assemble_of_reset (· = world.files) (fun _ => rfl) ?_
  intro announced same
  rw [← same] at failed ⊢
  exact (Staging.reset_unusable_ends notMissing failed).mono (fun _ _ impossible => impossible)
    fun _ _ unchanged => congrArg World.files unchanged

end ImageStaging.Build
