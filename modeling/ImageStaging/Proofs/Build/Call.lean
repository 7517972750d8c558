import ImageStaging.Proofs.Build.Assembly

/-!
# Coming to the build tool

A live run assembles the context, makes a note of the call and calls the tool, once. A dry run does
not come to the tool. So a run is told apart from its tool: `Calls` says that it comes to the tool,
and in which world, and then the run ends as the tool does there; any other run ends alike whatever
the tool is.
-/

namespace ImageStaging.Build

open ImageStaging.Action (GivesOnly Keeps)

variable {world atCall : World} {context : BuildContext} {request : Request} {config : Config}

/-- What a live run does before it calls the tool. -/
def approach (request : Request) (config : Config) : Action Failure BuildContext := do
  let context ← assemble request config
  let invocation := invocationOf config request context
  Action.note ⟨.delivery, .info, "running build tool", [("command", invocation.commandLine)]⟩
  modify fun world => { world with launches := world.launches ++ [invocation] }
  pure context

/-- What a dry run does in the place of a call. -/
def present (context : BuildContext) (request : Request) (config : Config) :
    Action Failure Unit := do
  let dockerfile ← (Action.look (·.readForDisplay context.dockerfilePath)).blaming fun fault =>
    .staging (.read context.dockerfilePath fault)
  (writePreview (invocationOf config request context) dockerfile).blaming .staging

theorem run_eq_of_live (live : request.dryRun = false) (tool : Tool) :
    run request config tool = (do
      let context ← approach request config
      (tool (invocationOf config request context)).blaming .tool
      pure context) := by
  unfold run invoke deliver approach assemble
  simp only [live, bind_assoc, pure_bind, Bool.false_eq_true, if_false]

theorem run_eq_of_dry (dry : request.dryRun = true) (tool : Tool) :
    run request config tool = (do
      let context ← assemble request config
      present context request config
      pure context) := by
  unfold run invoke deliver present assemble
  simp only [dry, bind_assoc, pure_bind, if_true]

/-- The run comes to call the tool for a context, in a world. -/
def Calls (request : Request) (config : Config) (world : World) (context : BuildContext)
    (atCall : World) : Prop :=
  request.dryRun = false ∧ (approach request config).run.run world = (.ok context, atCall)

/-- A run that calls the tool ends as the tool does. -/
theorem Calls.run_eq (calls : Calls request config world context atCall) (tool : Tool) :
    (run request config tool).run.run world =
      match (tool (invocationOf config request context)).run.run atCall with
      | (.ok (), after) => (.ok context, after)
      | (.error fault, after) => (.error (.tool fault), after) := by
  obtain ⟨live, comes⟩ := calls
  rw [run_eq_of_live live, Action.run_bind, comes]
  simp only [Action.run_bind, Action.run_blaming]
  generalize (tool (invocationOf config request context)).run.run atCall = ending
  obtain ⟨result, after⟩ := ending
  cases result <;> rfl

/-- The files at the call are those of the assembled context. -/
theorem Calls.assemble_run (calls : Calls request config world context atCall) :
    ∃ assembled, (assemble request config).run.run world = (.ok context, assembled) ∧
      atCall.files = assembled.files := by
  have ends : (approach request config).Ends world
      (fun context after => ∃ assembled,
        (assemble request config).run.run world = (.ok context, assembled) ∧
          after.files = assembled.files) (fun _ _ => True) := by
    unfold approach
    simp only [Action.ends_bind, Action.ends_note, Action.ends_modify, Action.ends_pure]
    exact (Action.ends_run _).mono (fun _ assembled run => ⟨assembled, run, rfl⟩)
      fun _ _ _ => trivial
  exact ends.of_ok calls.2

/-- An assembled context is where the request and the configuration have it. -/
theorem assemble_root (request : Request) (config : Config) :
    (assemble request config).GivesOnly fun context =>
      context.root = request.contextPath config.contextDirectory := by
  unfold assemble
  rw [prepare_eq]
  simp only [bind_assoc, pure_bind]
  refine GivesOnly.last fun _ => (Staging.stage_root _ _).bind fun context isRoot => ?_
  exact GivesOnly.last fun _ => GivesOnly.last fun _ => Action.givesOnly_pure isRoot

theorem Calls.root_eq (calls : Calls request config world context atCall) :
    context.root = request.contextPath config.contextDirectory := by
  obtain ⟨assembled, run, -⟩ := calls.assemble_run
  exact (assemble_root request config).of_run run

/-- A run that does not call the tool does not depend on it. -/
theorem run_eq_of_not_calls (quiet : ∀ context atCall, ¬ Calls request config world context atCall)
    (tool other : Tool) :
    (run request config tool).run.run world = (run request config other).run.run world := by
  cases kind : request.dryRun with
  | true => rw [run_eq_of_dry kind, run_eq_of_dry kind]
  | false =>
    rw [run_eq_of_live kind, run_eq_of_live kind, Action.run_bind, Action.run_bind]
    cases comes : (approach request config).run.run world with
    | mk result after =>
      cases result with
      | ok context => exact absurd ⟨kind, comes⟩ (quiet context after)
      | error fault => rfl

theorem run_eq_assemble (request : Request) (config : Config) (tool : Tool) :
    run request config tool = (do
      let context ← assemble request config
      deliver context request config tool
      pure context) := by
  unfold run invoke assemble
  simp only [bind_assoc, pure_bind]

/-- A run without a context leaves the files as assembling does. -/
theorem run_of_assemble_fails {property : FileSystem → Prop} {tool : Tool}
    (fails : (assemble request config).Ends world (fun _ _ => False)
      (fun _ after => property after.files)) :
    (run request config tool).Ends world (fun _ _ => False)
      (fun _ after => property after.files) := by
  rw [run_eq_assemble]
  simp only [Action.ends_bind]
  exact fails.mono (fun _ _ impossible => impossible.elim) fun _ _ holds => holds

theorem present_keeps {property : FileSystem → Prop} (context : BuildContext) (request : Request)
    (config : Config) : (present context request config).Keeps property := by
  unfold present writePreview
  refine (Action.keeps_look _).blaming.bind fun dockerfile => Keeps.blaming ?_
  refine (Action.keeps_print _).bind fun complete => ?_
  split
  · exact Action.keeps_pure _
  · exact Action.keeps_throw _

/-- What assembling leaves true of the files a whole run leaves true, if the tool does. -/
theorem run_ends {property : FileSystem → Prop} {tool : Tool}
    (assembles : (assemble request config).Ends world (fun _ after => property after.files)
      (fun _ after => property after.files))
    (aside : ∀ invocation, (tool invocation).Keeps property) :
    (run request config tool).Ends world (fun _ after => property after.files)
      (fun _ after => property after.files) := by
  cases kind : request.dryRun with
  | true =>
    rw [run_eq_of_dry kind]
    simp only [Action.ends_bind, Action.ends_pure]
    refine assembles.mono (fun context assembled holds => ?_) fun _ _ holds => holds
    exact present_keeps context request config assembled holds
  | false =>
    rw [run_eq_of_live kind]
    unfold approach
    simp only [Action.ends_bind, Action.ends_blaming, Action.ends_note, Action.ends_modify,
      Action.ends_pure]
    refine assembles.mono (fun context assembled holds => ?_) fun _ _ holds => holds
    exact aside (invocationOf config request context) _ holds

end ImageStaging.Build
