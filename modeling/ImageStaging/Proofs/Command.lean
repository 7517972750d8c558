import ImageStaging.CommandLine.Command
import ImageStaging.Proofs.Build.Handover
import ImageStaging.Proofs.Dependence.Rules
import ImageStaging.Proofs.Request
import ImageStaging.Proofs.Text.Utf8

/-!
# The build command

A command finds a mistake of its caller, having touched nothing, or it runs a build. The words
behind two dashes are not looked at on the way: they come to the build tool as they were written,
between its verb and the path of the context.
-/

namespace ImageStaging

namespace Arguments

/-- The words in front of two dashes are read as if nothing came after them, and those behind are
not read. -/
theorem readFrom_append {front : List String} (undivided : doubleDash ∉ front) (reading : Reading)
    (options : List String) : readFrom reading (front ++ doubleDash :: options) =
      (readFrom reading front).map fun arguments => { arguments with options } := by
  induction front generalizing reading with
  | nil =>
    rw [List.nil_append, readFrom, readFrom, if_pos rfl]
    cases reading.settle <;> rfl
  | cons word rest ih =>
    simp only [List.mem_cons, not_or] at undivided
    obtain ⟨differ, undivided⟩ := undivided
    rw [List.cons_append, readFrom, readFrom, if_neg (Ne.symm differ), if_neg (Ne.symm differ)]
    cases reading.readWord word.toList with
    | error stop => rfl
    | ok next => exact ih undivided next

end Arguments

namespace Config

theorem accepted_of_ofYaml {text : Text} {config : Config} (read : ofYaml text = .ok config) :
    config.validate = .ok () := by
  rw [ofYaml] at read
  split at read
  · cases read
    decide
  · split at read
    · cases read
    · split at read
      · next accepted =>
        cases read
        exact accepted
      · cases read

theorem run_load (path : Path) (world : World) :
    (load path).run.run world =
      ((world.files.readText path).mapError (.unreadable path) >>= ofYaml, world) := by
  rw [load, Action.run_bind, Action.run_blaming, Action.run_look]
  cases world.files.readText path with
  | error fault => rfl
  | ok text =>
    simp only [Except.mapError, bind, Except.bind]
    cases ofYaml text <;> rfl

end Config

namespace Command

variable {files : FileSystem} {arguments : Arguments} {config : Config}

/-- Reading the configuration changes nothing. -/
theorem run_readConfig (arguments : Arguments) (world : World) :
    (readConfig arguments).run.run world = ((readConfig arguments).answer world.files, world) := by
  rw [readConfig, Action.answer]
  cases arguments.config with
  | none => rfl
  | some path => rw [Config.run_load, Config.run_load]

theorem accepted_of_readConfig (read : (readConfig arguments).answer files = .ok config) :
    config.validate = .ok () := by
  rw [readConfig, Action.answer] at read
  cases given : arguments.config with
  | none =>
    rw [given] at read
    cases read
    decide
  | some path =>
    rw [given, Config.run_load] at read
    cases text : files.readText (Path.ofString path) with
    | error fault =>
      rw [text] at read
      cases read
    | ok text' =>
      rw [text] at read
      exact Config.accepted_of_ofYaml read

/-- Once the arguments are accepted and the configuration is read, it remains to make the paths
absolute and to build. -/
theorem run_of_configured {world : World} (accepted : arguments.validate = .ok ())
    (configured : (readConfig arguments).answer world.files = .ok config) (tool : Build.Tool) :
    (run arguments tool).run.run world =
      match Request.resolve world.files.workingDirectoryPath?
        (Path.ofString arguments.sourcePath) (arguments.libraryPaths.map Path.ofString)
        arguments.options arguments.dryRun with
      | .error failure => (.error failure, world)
      | .ok request => (((Build.run request config tool).run.run world).1.map fun _ => (),
          ((Build.run request config tool).run.run world).2) := by
  have reads : ((readConfig arguments).blaming .config).run.run world =
      ((.ok config : Except Failure Config), world) := by
    rw [Action.run_blaming, run_readConfig, configured]
  have begun : (get : Action Failure World).run.run world = (.ok world, world) := rfl
  rw [run, accepted]
  refine (Action.run_bind_of_ok reads).trans ((Action.run_bind_of_ok begun).trans ?_)
  dsimp only
  cases Request.resolve world.files.workingDirectoryPath? (Path.ofString arguments.sourcePath)
      (arguments.libraryPaths.map Path.ofString) arguments.options arguments.dryRun with
  | error failure => rfl
  | ok request =>
    dsimp only
    refine (Action.run_bind _ _ _).trans ?_
    rcases (Build.run request config tool).run.run world with ⟨fault | context, after⟩
    · rfl
    · rfl

/-- What keeps a command from building: its arguments, the configuration, or a path that cannot be
made absolute. -/
inductive Refused (arguments : Arguments) (files : FileSystem) : Failure → Prop
  | arguments {fault : UsageFault} (rejected : arguments.validate = .error fault) :
      Refused arguments files (.usage fault)
  | config {fault : ConfigFault} (accepted : arguments.validate = .ok ())
      (unread : (readConfig arguments).answer files = .error fault) :
      Refused arguments files (.config fault)
  | path {config : Config} {failure : Failure} (accepted : arguments.validate = .ok ())
      (configured : (readConfig arguments).answer files = .ok config)
      (unresolved : Request.resolve files.workingDirectoryPath?
        (Path.ofString arguments.sourcePath) (arguments.libraryPaths.map Path.ofString)
        arguments.options arguments.dryRun = .error failure) :
      Refused arguments files failure

theorem Refused.exitCode_eq {failure : Failure} (refused : Refused arguments files failure) :
    failure.exitCode = 1 := by
  cases refused with
  | arguments => rfl
  | config => rfl
  | path _ _ unresolved => exact Request.exitCode_of_resolve unresolved

/-- A command that is refused touches nothing. -/
theorem Refused.run_eq {world : World} {failure : Failure}
    (refused : Refused arguments world.files failure) (tool : Build.Tool) :
    (run arguments tool).run.run world = (.error failure, world) := by
  cases refused with
  | arguments rejected =>
    rw [run, rejected]
    rfl
  | @config fault accepted unread =>
    have stops : ((readConfig arguments).blaming .config).run.run world =
        (.error (Failure.config fault), world) := by
      rw [Action.run_blaming, run_readConfig, unread]
    rw [run, accepted]
    exact Action.run_bind_of_error stops
  | path accepted configured unresolved =>
    rw [run_of_configured accepted configured, unresolved]

/-- A command that is not refused builds, whatever the tool is. -/
theorem refused_or_builds (arguments : Arguments) (world : World) :
    (∃ failure, Refused arguments world.files failure) ∨
    ∃ config request, arguments.validate = .ok () ∧
      (readConfig arguments).answer world.files = .ok config ∧
      Request.resolve world.files.workingDirectoryPath? (Path.ofString arguments.sourcePath)
        (arguments.libraryPaths.map Path.ofString) arguments.options arguments.dryRun =
          .ok request ∧
      ∀ tool, (run arguments tool).run.run world =
        (((Build.run request config tool).run.run world).1.map fun _ => (),
          ((Build.run request config tool).run.run world).2) := by
  cases accepted : arguments.validate with
  | error fault => exact .inl ⟨_, .arguments accepted⟩
  | ok =>
    cases configured : (readConfig arguments).answer world.files with
    | error fault => exact .inl ⟨_, .config accepted configured⟩
    | ok config =>
      have runs := run_of_configured accepted configured
      cases resolved : Request.resolve world.files.workingDirectoryPath?
          (Path.ofString arguments.sourcePath) (arguments.libraryPaths.map Path.ofString)
          arguments.options arguments.dryRun with
      | error failure => exact .inl ⟨failure, .path accepted configured resolved⟩
      | ok request =>
        rw [resolved] at runs
        exact .inr ⟨config, request, rfl, rfl, rfl, runs⟩

/-- The command comes to call the tool for an invocation, in a world, and then ends as the tool does
there. -/
def Calls (arguments : Arguments) (world : World) (invocation : Invocation) (atCall : World) :
    Prop :=
  ∀ tool : Build.Tool, (run arguments tool).run.run world =
    ((tool invocation).blaming .tool).run.run atCall

/-- A command that calls the tool does so for its own options, with the words of the configuration
that it reads and the path of the context inside its source. -/
theorem calls_or_not (arguments : Arguments) (world : World) :
    (∀ tool other : Build.Tool,
      (run arguments tool).run.run world = (run arguments other).run.run world) ∨
    ∃ config source invocation atCall, Calls arguments world invocation atCall ∧
      (readConfig arguments).answer world.files = .ok config ∧
      (Path.ofString arguments.sourcePath).absolute? world.files.workingDirectoryPath? =
        some source ∧
      invocation = ⟨config.buildTool, config.buildVerb, arguments.options,
        source.join (Path.ofString config.contextDirectory)⟩ := by
  rcases refused_or_builds arguments world with
    ⟨failure, refused⟩ | ⟨config, request, -, configured, resolved, builds⟩
  · exact .inl fun tool other => by rw [refused.run_eq, refused.run_eq]
  · by_cases quiet : ∀ context atCall, ¬ Build.Calls request config world context atCall
    · exact .inl fun tool other => by
        rw [builds, builds, Build.run_eq_of_not_calls quiet tool other]
    · simp only [not_forall, not_not] at quiet
      obtain ⟨context, atCall, calls⟩ := quiet
      obtain ⟨source, libraries, spelled, _, isRequest⟩ := Request.resolve_eq_ok_iff.1 resolved
      refine .inr ⟨config, source, Build.invocationOf config request context, atCall,
        fun tool => ?_, configured, spelled, ?_⟩
      · rw [builds, calls.run_eq, Action.run_blaming]
        rcases (tool (Build.invocationOf config request context)).run.run atCall with
          ⟨fault | value, after⟩
        · rfl
        · rfl
      · rw [Build.invocationOf, calls.root_eq, isRequest]
        rfl

/-- What stands behind the first two dashes is handed to the build tool as it is. The words in front
of them are read as if they were alone, and if the tool is called, then by its name in the
configuration, with the verb, those words in their order and the path of the context, which is
shown as it is if it is a text. -/
theorem options_travel_verbatim {front options : List String} {arguments : Arguments}
    (undivided : Arguments.doubleDash ∉ front) (read : Arguments.ofWords front = .ok arguments) :
    Arguments.ofWords (front ++ Arguments.doubleDash :: options) =
        .ok { arguments with options } ∧
      ∀ world : World,
        (∀ tool other : Build.Tool, (run { arguments with options } tool).run.run world =
          (run { arguments with options } other).run.run world) ∨
        ∃ config source invocation atCall,
          Calls { arguments with options } world invocation atCall ∧
          (readConfig arguments).answer world.files = .ok config ∧
          (Path.ofString arguments.sourcePath).absolute? world.files.workingDirectoryPath? =
            some source ∧
          invocation.contextPath = source.join (Path.ofString config.contextDirectory) ∧
          invocation.program = config.buildTool ∧
          invocation.arguments =
            config.buildVerb :: options ++ [invocation.contextPath.display] ∧
          ∀ text, invocation.contextPath = Path.ofText text →
            invocation.contextPath.display = String.ofList text := by
  have parsed : Arguments.ofWords (front ++ Arguments.doubleDash :: options) =
      .ok { arguments with options } := by
    rw [Arguments.ofWords, Arguments.readFrom_append undivided]
    exact congrArg (Except.map fun arguments => { arguments with options }) read
  refine ⟨parsed, fun world => ?_⟩
  rcases calls_or_not { arguments with options } world with
    quiet | ⟨config, source, invocation, atCall, calls, configured, spelled, rfl⟩
  · exact .inl quiet
  · refine .inr ⟨config, source, _, atCall, calls, configured, spelled, rfl, rfl, rfl, ?_⟩
    intro text isText
    rw [isText, Path.display, Path.ofText, Utf8.decodeLossy_encode]

def verboseArguments : Arguments :=
  { source := some "/image", libraries := ["/library"], verbose := true }

/-- Options that are empty or read like flags of this program, or that are two dashes again. -/
theorem options_travel_verbatim_flags :
    Arguments.ofWords ["-v", "-s", "/image", "--lib=/library", "--", "", "--", "--dry", "-q"] =
        .ok { verboseArguments with options := ["", "--", "--dry", "-q"] } ∧
      ∃ invocation atCall, Calls { verboseArguments with options := ["", "--", "--dry", "-q"] }
          { files := Build.sampleFiles } invocation atCall ∧
        invocation.program = "docker" ∧
        invocation.arguments = ["build", "", "--", "--dry", "-q", "/image/_docker-build"] := by
  obtain ⟨parsed, reaches⟩ :=
    @options_travel_verbatim ["-v", "-s", "/image", "--lib=/library"] ["", "--", "--dry", "-q"]
      verboseArguments (by decide) (by decide +kernel)
  refine ⟨parsed, ?_⟩
  rcases reaches { files := Build.sampleFiles } with
    quiet | ⟨config, source, invocation, atCall, calls, configured, spelled, isPath, isProgram,
      isArguments, -⟩
  · have same := congrArg (fun ending => ending.1.toOption) (quiet (fun _ => pure ())
      fun invocation => throw (.launch invocation.program .nulInWord))
    exact absurd same (by decide +kernel)
  · obtain rfl : {} = config := Except.ok.inj configured
    obtain rfl : Path.ofString "/image" = source := Option.some.inj spelled
    refine ⟨invocation, atCall, calls, isProgram, isArguments.trans ?_⟩
    rw [isPath]
    decide +kernel

end Command

end ImageStaging
