import ImageStaging.CommandLine.Outcome
import ImageStaging.Proofs.Build.Fault
import ImageStaging.Proofs.Command

/-!
# What the exit code tells

The exit code tells how far a run got: 1 before anything was touched, 2 and 3 before the build tool
was launched, 4 after it was, and 0 at the end of what was asked for. This holds whatever programs
there are to be launched, and whatever they do, of standard output that takes little or nothing, and
of storage that fails.
-/

namespace ImageStaging

/-! ## The build tool -/

theorem World.launches_after (world : World) (child : Child) :
    (world.after child).launches = world.launches := rfl

/-- Calling a tool is launching its program, which leaves the world as it is or as the program
leaves it. -/
theorem Spawner.run_tool (spawner : Spawner) (invocation : Invocation) (world : World) :
    (Spawner.tool spawner invocation).run.run world =
      match spawner world.files invocation.program invocation.arguments with
      | .error fault => (.error (.launch invocation.program fault), world)
      | .ok child =>
        (if child.status = .code 0 then .ok ()
          else .error (.ended invocation.commandLine child.status), world.after child) := by
  have begun : (get : Action ToolFault World).run.run world = (.ok world, world) := rfl
  rw [tool, Action.run_bind, begun]
  cases launched : spawner world.files invocation.program invocation.arguments with
  | error fault =>
    simp only [launched]
    rfl
  | ok child =>
    simp only [launched]
    by_cases succeeded : child.status = .code 0
    · simp only [succeeded, if_true]
      rfl
    · simp only [succeeded, if_false]
      rfl

namespace Executable

/-- The arguments, the configuration and the request that words come to in some files. -/
structure Requested (words : List String) (files : FileSystem) (arguments : Arguments)
    (config : Config) (request : Request) : Prop where
  read : Arguments.ofWords words = .ok arguments
  accepted : arguments.validate = .ok ()
  configured : (Command.readConfig arguments).answer files = .ok config
  resolved : Request.resolve files.workingDirectoryPath? (Path.ofString arguments.sourcePath)
    (arguments.libraryPaths.map Path.ofString) arguments.options arguments.dryRun = .ok request

variable {spawner : Spawner} {words : List String} {world : World} {arguments : Arguments}
  {config : Config} {request : Request}

theorem Requested.dryRun_eq (requested : Requested words world.files arguments config request) :
    request.dryRun = arguments.dryRun := by
  obtain ⟨_, _, _, _, rfl⟩ := Request.resolve_eq_ok_iff.1 requested.resolved
  rfl

/-- A command either finds a mistake of its caller before it touches anything, or it builds. -/
theorem run_command (tool : Build.Tool) (read : Arguments.ofWords words = .ok arguments)
    (world : World) :
    (∃ failure : Failure, failure.exitCode = 1 ∧
      (Command.run arguments tool).run.run world = (.error failure, world)) ∨
    ∃ config request, Requested words world.files arguments config request ∧ ∀ result after,
      (Build.run request config tool).run.run world = (result, after) →
        (Command.run arguments tool).run.run world = (result.map fun _ => (), after) := by
  rcases Command.refused_or_builds arguments world with
    ⟨failure, refused⟩ | ⟨config, request, accepted, configured, resolved, builds⟩
  · exact .inl ⟨failure, refused.exitCode_eq, refused.run_eq tool⟩
  · refine .inr ⟨config, request, ⟨read, accepted, configured, resolved⟩, ?_⟩
    intro result after built
    rw [builds, built]

/-! ## How far a run got -/

/-- Help or the version was printed, as far as standard output takes it, and nothing was touched. -/
structure Told (words : List String) (world : World) (outcome : Outcome) : Prop where
  asked : ∃ stop, Arguments.ofWords words = .error stop ∧ (stop = .help ∨ stop = .version) ∧
    outcome.output = world.output ++ world.taken (bytesOf stop.text)
  files : outcome.world.files = world.files
  journal : outcome.world.journal = world.journal
  launches : outcome.world.launches = world.launches

/-- A dry run launched nothing and wrote the whole preview of the context that it assembled. -/
def Shown (words : List String) (world : World) (outcome : Outcome) : Prop :=
  ∃ arguments config request context assembled dockerfile,
    Requested words world.files arguments config request ∧ arguments.dryRun = true ∧
    (Build.assemble request config).run.run world = (.ok context, assembled) ∧
    assembled.files.readForDisplay context.dockerfilePath = .ok dockerfile ∧
    outcome.world.files = assembled.files ∧ outcome.world.launches = world.launches ∧
    outcome.output = world.output ++
      bytesOf (Build.preview (Build.invocationOf config request context) dockerfile)

/-- A live run came to its build tool, having printed nothing, and called it once. -/
structure Called (words : List String) (world : World) (outcome : Outcome)
    (invocation : Invocation) (atCall : World) : Prop where
  assembled : ∃ arguments config request context,
    Requested words world.files arguments config request ∧ arguments.dryRun = false ∧
    Build.Calls request config world context atCall ∧
    invocation = Build.invocationOf config request context
  quiet : atCall.output = world.output
  once : outcome.world.launches = world.launches ++ [invocation]

/-- The tool was launched and ended with status 0, and what it left and printed is the outcome. -/
def Built (spawner : Spawner) (words : List String) (world : World) (outcome : Outcome) : Prop :=
  ∃ invocation atCall child, Called words world outcome invocation atCall ∧
    spawner atCall.files invocation.program invocation.arguments = .ok child ∧
    child.status = .code 0 ∧ outcome.world = atCall.after child ∧
    outcome.output = world.output ++ child.output

/-- The tool could not be launched or ended in another way. -/
def Broken (spawner : Spawner) (words : List String) (world : World) (outcome : Outcome) : Prop :=
  ∃ invocation atCall, Called words world outcome invocation atCall ∧
    ((∃ fault, spawner atCall.files invocation.program invocation.arguments = .error fault ∧
        outcome.world = atCall) ∨
      ∃ child, spawner atCall.files invocation.program invocation.arguments = .ok child ∧
        child.status ≠ .code 0 ∧ outcome.world = atCall.after child)

/-- How far a run got that ended with an exit code. -/
def Reached (spawner : Spawner) (words : List String) (world : World) (outcome : Outcome) :
    Nat → Prop
  | 0 => Told words world outcome ∨ Shown words world outcome ∨ Built spawner words world outcome
  | 1 => outcome.world = world ∧ outcome.output = world.output
  | 2 | 3 => outcome.world.launches = world.launches
  | 4 => Broken spawner words world outcome
  | _ => False

variable {assembled : World} {context : BuildContext} {outcome : Outcome}
  {result : Except Failure BuildContext}

/-- The exit code that the result of a run gives. -/
def codeOf {α : Type} : Except Failure α → Nat
  | .ok _ => 0
  | .error failure => failure.exitCode

section Building

variable (requested : Requested words world.files arguments config request)
  (built : (Build.run request config (Spawner.tool spawner)).run.run world =
    (result, outcome.world))
  (printed : outcome.output = outcome.world.output)
include requested built

theorem reached_of_unassembled {fault : Failure}
    (ran : (Build.assemble request config).run.run world = (.error fault, assembled)) :
    Reached spawner words world outcome (codeOf result) := by
  rw [Build.run_eq_assemble, Action.run_bind_of_error ran] at built
  obtain ⟨rfl, isWorld⟩ := Prod.mk.inj built
  have quiet := (Build.onStorage_assemble request config).shown_of_run ran
  have launches : outcome.world.launches = world.launches := isWorld ▸ quiet.launches
  have accepted := Command.accepted_of_readConfig requested.configured
  rw [codeOf]
  rcases (Build.assemble_fails accepted request).of_run ran with isCode | isCode
  · rw [isCode]
    exact launches
  · rw [isCode]
    exact launches

variable (ran : (Build.assemble request config).run.run world = (.ok context, assembled))
include ran printed

theorem reached_of_dry (dry : request.dryRun = true) :
    Reached spawner words world outcome (codeOf result) := by
  have quiet := (Build.onStorage_assemble request config).shown_of_run ran
  rw [Build.run_eq_of_dry dry, Action.run_bind_of_ok ran, Action.run_bind] at built
  rcases (Build.present_ends context request config assembled).ending with
    ⟨_, after, run, files, launches, dockerfile, readable, output⟩ |
      ⟨fault, after, run, isCode, launches⟩
  · rw [run] at built
    obtain ⟨rfl, isWorld⟩ := Prod.mk.inj built
    refine .inr (.inl ⟨arguments, config, request, context, assembled, dockerfile, requested,
      requested.dryRun_eq ▸ dry, ran, readable, ?_, ?_, ?_⟩)
    · rw [← isWorld]
      exact files
    · rw [← isWorld]
      exact launches.trans quiet.launches
    · rw [printed, ← isWorld, output, quiet.output, bytesOf]
  · rw [run] at built
    obtain ⟨rfl, isWorld⟩ := Prod.mk.inj built
    rw [codeOf, isCode]
    show outcome.world.launches = world.launches
    rw [← isWorld, launches, quiet.launches]

theorem reached_of_live (live : request.dryRun = false) :
    Reached spawner words world outcome (codeOf result) := by
  have quiet := (Build.onStorage_assemble request config).shown_of_run ran
  have same : { request with dryRun := false } = request := by rw [← live]
  have calls := Build.calls_of_assemble ran
  rw [same] at calls
  have runs := calls.run_eq (Spawner.tool spawner)
  rw [built, Spawner.run_tool] at runs
  have once : (Build.called request config context assembled).launches =
      world.launches ++ [Build.invocationOf config request context] := by
    rw [Build.called, quiet.launches]
  have comesTo : outcome.world.launches =
        world.launches ++ [Build.invocationOf config request context] →
      Called words world outcome (Build.invocationOf config request context)
        (Build.called request config context assembled) := fun launches =>
    ⟨⟨arguments, config, request, context, requested, requested.dryRun_eq ▸ live, calls, rfl⟩,
      quiet.output, launches⟩
  cases launched : spawner (Build.called request config context assembled).files
      (Build.invocationOf config request context).program
      (Build.invocationOf config request context).arguments with
  | error fault =>
    rw [launched] at runs
    obtain ⟨rfl, isWorld⟩ := Prod.mk.inj runs
    exact ⟨_, _, comesTo (isWorld ▸ once), .inl ⟨fault, launched, isWorld⟩⟩
  | ok child =>
    rw [launched] at runs
    dsimp only at runs
    by_cases succeeded : child.status = .code 0
    · rw [if_pos succeeded] at runs
      obtain ⟨rfl, isWorld⟩ := Prod.mk.inj runs
      refine .inr (.inr ⟨_, _, child, comesTo ?_, launched, succeeded, isWorld, ?_⟩)
      · rw [isWorld, World.launches_after, once]
      · rw [printed, isWorld]
        exact congrArg (· ++ child.output) quiet.output
    · rw [if_neg succeeded] at runs
      obtain ⟨rfl, isWorld⟩ := Prod.mk.inj runs
      refine ⟨_, _, comesTo ?_, .inr ⟨child, launched, succeeded, isWorld⟩⟩
      rw [isWorld, World.launches_after, once]

omit ran
/-- Once the context is assembled, or not, the kind of the run decides. -/
theorem reached_of_build : Reached spawner words world outcome (codeOf result) := by
  rcases ran : (Build.assemble request config).run.run world with ⟨fault | context, assembled⟩
  · exact reached_of_unassembled requested built ran
  · cases kind : request.dryRun with
    | true => exact reached_of_dry requested built printed ran kind
    | false => exact reached_of_live requested built printed ran kind

end Building

theorem exitCode_stopped (world : World) (stop : Arguments.Stop) :
    (stopped world stop).exitCode = stop.exitCode := by
  unfold stopped
  split <;> rfl

/-- What words come to whose reading stops. -/
theorem reached_of_stop {stop : Arguments.Stop} (read : Arguments.ofWords words = .error stop) :
    Reached spawner words world (stopped world stop) (stopped world stop).exitCode := by
  cases mistaken : stop.isMistake with
  | true =>
    have ends : stopped world stop = ⟨world, 2, world.output, bytesOf stop.text⟩ := by
      simp only [stopped, Arguments.Stop.exitCode, mistaken, if_true]
    rw [ends]
    exact (rfl : world.launches = world.launches)
  | false =>
    have asks : stop = .help ∨ stop = .version := by
      cases stop with
      | help => exact .inl rfl
      | version => exact .inr rfl
      | _ => cases mistaken
    rw [exitCode_stopped, Arguments.Stop.exitCode, mistaken]
    refine .inl ⟨⟨stop, read, asks, ?_⟩, ?_, ?_, ?_⟩
    all_goals rcases asks with rfl | rfl <;> rfl

theorem started_of_run {result : Except Failure Unit} {after : World} (logSetting : Option String)
    (ran : (Command.run arguments (Spawner.tool spawner)).run.run world = (result, after)) :
    (started spawner world logSetting arguments).world = after ∧
      (started spawner world logSetting arguments).output = after.output ∧
      (started spawner world logSetting arguments).exitCode = codeOf result := by
  have ran : (Command.run arguments (Spawner.tool spawner)).run world = (result, after) := ran
  rw [started, ran]
  cases result <;> exact ⟨rfl, rfl, rfl⟩

/-- What arguments come to that could be read, the outcome being told by the run of the command. -/
theorem reached_of_arguments (read : Arguments.ofWords words = .ok arguments)
    (ends : ∀ {result after},
      (Command.run arguments (Spawner.tool spawner)).run.run world = (result, after) →
        outcome.world = after ∧ outcome.output = after.output ∧
          outcome.exitCode = codeOf result) :
    Reached spawner words world outcome outcome.exitCode := by
  rcases run_command (Spawner.tool spawner) read world with
    ⟨failure, isCode, fails⟩ | ⟨config, request, requested, builds⟩
  · obtain ⟨isWorld, output, code⟩ := ends fails
    rw [code, codeOf, isCode]
    exact ⟨isWorld, output⟩
  · rcases built : (Build.run request config (Spawner.tool spawner)).run.run world with
      ⟨result, after⟩
    have sameCode : codeOf (result.map fun _ => ()) = codeOf result := by
      cases result <;> rfl
    obtain ⟨isWorld, output, code⟩ := ends (builds result after built)
    rw [code, sameCode]
    rw [← isWorld] at built output
    exact reached_of_build requested built output

/-- How far a run got can be told by its exit code. -/
theorem exit_code_tells (spawner : Spawner) (words : List String) (logSetting : Option String)
    (world : World) :
    Reached spawner words world (runWith spawner words logSetting world)
      (runWith spawner words logSetting world).exitCode := by
  rw [runWith]
  cases read : Arguments.ofWords words with
  | error stop => exact reached_of_stop read
  | ok arguments =>
    apply reached_of_arguments read
    intro result after ran
    exact started_of_run logSetting ran

end Executable

end ImageStaging
