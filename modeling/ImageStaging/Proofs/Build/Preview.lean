import ImageStaging.Proofs.Build.Repetition

/-!
# What a dry run tells of a live run

A dry run and a live run assemble the context alike, since assembling does not look at the kind of
the run. Where the live run then calls the tool, the dry run reads the final Dockerfile and prints
it with the call. That reading is the only thing the live run does not do, so it is the only way
for the two to differ.
-/

namespace ImageStaging.Build

open Layout (dockerfileName imageName)

variable {world assembled atCall : World} {context : BuildContext} {request : Request}
  {config : Config} {tool : Tool}

theorem onStorage_assemble (request : Request) (config : Config) :
    (assemble request config).OnStorage := by
  rw [assemble_eq_clear]
  exact (onFiles_clear request config).onStorage.bind fun _ => onStorage_furnish request config

/-- The world in which the tool is called for an assembled context. -/
def called (request : Request) (config : Config) (context : BuildContext) (assembled : World) :
    World :=
  let invocation := invocationOf config request context
  { assembled with
    log := assembled.log ++
      [⟨.delivery, .info, "running build tool", [("command", invocation.commandLine)]⟩]
    launches := assembled.launches ++ [invocation] }

theorem run_approach (request : Request) (config : Config) (world : World) :
    (approach request config).run.run world =
      match (assemble request config).run.run world with
      | (.ok context, assembled) => (.ok context, called request config context assembled)
      | (.error fault, after) => (.error fault, after) := by
  rw [approach, Action.run_bind]
  generalize (assemble request config).run.run world = ending
  obtain ⟨result, after⟩ := ending
  cases result <;> rfl

/-- A live run calls the tool if the context can be assembled. -/
theorem calls_of_assemble (run : (assemble request config).run.run world = (.ok context, assembled)) :
    Calls { request with dryRun := false } config world context
      (called request config context assembled) := by
  refine ⟨rfl, ?_⟩
  rw [run_approach, show (assemble { request with dryRun := false } config).run.run world = _
    from run]
  rfl

theorem not_calls_of_assemble {fault : Failure} {after : World}
    (run : (assemble request config).run.run world = (.error fault, after)) :
    ¬ Calls { request with dryRun := false } config world context atCall := by
  rintro ⟨-, comes⟩
  rw [run_approach, show (assemble { request with dryRun := false } config).run.run world = _
    from run] at comes
  cases comes

theorem run_present (request : Request) (config : Config) (context : BuildContext)
    (endless : world.room = none) :
    (present context request config).run.run world =
      match world.files.readForDisplay context.dockerfilePath with
      | .ok dockerfile => (.ok (), { world with
          output := world.output ++
            Utf8.encode (preview (invocationOf config request context) dockerfile).toList })
      | .error fault => (.error (.staging (.read context.dockerfilePath fault)), world) := by
  rw [present, Action.run_bind, Action.run_blaming, Action.run_look]
  cases world.files.readForDisplay context.dockerfilePath with
  | error fault => rfl
  | ok dockerfile =>
    simp only [Action.run_blaming, writePreview, Action.run_bind, Action.run_print, World.taken,
      endless]
    rfl

/-- A preview that is presented without a fault is complete. -/
theorem present_ends (context : BuildContext) (request : Request) (config : Config)
    (world : World) :
    (present context request config).Ends world
      (fun _ after => after.files = world.files ∧ after.launches = world.launches ∧
        ∃ dockerfile, world.files.readForDisplay context.dockerfilePath = .ok dockerfile ∧
          after.output = world.output ++
            Utf8.encode (preview (invocationOf config request context) dockerfile).toList)
      (fun fault after => fault.exitCode = 3 ∧ after.launches = world.launches) := by
  unfold present writePreview
  simp only [Action.ends_bind, Action.ends_blaming, Action.ends_look, Action.ends_print]
  refine ⟨fun dockerfile readable => ?_, fun _ _ => ⟨rfl, trivial⟩⟩
  split
  · next enough =>
    rw [Action.taken_of_all enough]
    exact ⟨rfl, rfl, dockerfile, readable, rfl⟩
  · exact ⟨rfl, rfl⟩

/-- A run comes to one call only. -/
theorem Calls.unique {context' : BuildContext} {atCall' : World}
    (calls : Calls request config world context atCall)
    (calls' : Calls request config world context' atCall') :
    context' = context ∧ atCall' = atCall := by
  obtain ⟨sameContext, sameWorld⟩ := Prod.mk.inj (calls'.2.symm.trans calls.2)
  exact ⟨Except.ok.inj sameContext, sameWorld⟩

/-- What keeps the context from being assembled ends either kind of run. -/
theorem run_of_not_assembled {fault : Failure}
    (ran : (assemble request config).run.run world = (.error fault, assembled)) (dryRun : Bool)
    (tool : Tool) :
    (run { request with dryRun } config tool).run.run world = (.error fault, assembled) := by
  rw [run_eq_assemble]
  exact Action.run_bind_of_error ran

/-- What the two kinds of run do from a world in which the tool is called. -/
structure Previewed (request : Request) (config : Config) (tool : Tool) (world : World)
    (context : BuildContext) (atCall : World) : Prop where
  /-- The live run hands its invocation to the tool, and it has printed nothing so far. -/
  handed : atCall.launches = world.launches ++ [invocationOf config request context]
  quiet : atCall.output = world.output
  liveFiles : ((run { request with dryRun := false } config tool).run.run world).2.files =
    atCall.files
  dryFiles : ((run { request with dryRun := true } config tool).run.run world).2.files =
    atCall.files
  /-- The dry run prints that invocation and the Dockerfile that the tool would have seen. -/
  shown : ∀ dockerfile, atCall.files.readForDisplay context.dockerfilePath = .ok dockerfile →
    ∃ after, (run { request with dryRun := true } config tool).run.run world =
        (.ok context, after) ∧
      after.output = world.output ++
        Utf8.encode (preview (invocationOf config request context) dockerfile).toList
  unreadable : ∀ fault, atCall.files.readForDisplay context.dockerfilePath = .error fault →
    ∃ after, (run { request with dryRun := true } config tool).run.run world =
        (.error (.staging (.read context.dockerfilePath fault)), after) ∧
      after.output = world.output

/-- A dry run ends with the reading of the Dockerfile that it has assembled. -/
theorem run_dry (ran : (assemble request config).run.run world = (.ok context, assembled))
    (endless : assembled.room = none) (tool : Tool) :
    (run { request with dryRun := true } config tool).run.run world =
      match assembled.files.readForDisplay context.dockerfilePath with
      | .ok dockerfile => (.ok context, { assembled with
          output := assembled.output ++
            Utf8.encode (preview (invocationOf config request context) dockerfile).toList })
      | .error fault => (.error (.staging (.read context.dockerfilePath fault)), assembled) := by
  have ran' : (assemble { request with dryRun := true } config).run.run world = _ := ran
  rw [run_eq_of_dry rfl, Action.run_bind_of_ok ran', Action.run_bind, run_present _ _ _ endless]
  cases assembled.files.readForDisplay context.dockerfilePath <;> rfl

theorem previewed (ran : (assemble request config).run.run world = (.ok context, assembled))
    (endless : world.room = none) (aside : ∀ invocation files, (tool invocation).Keeps (· = files)) :
    Previewed request config tool world context (called request config context assembled) := by
  have beside := (onStorage_assemble request config).shown_of_run ran
  have dry := run_dry ran (beside.room.trans endless) tool
  have live := (calls_of_assemble ran).run_eq tool
  refine ⟨?_, beside.output, ?_, ?_, ?_, ?_⟩
  · rw [called, beside.launches]
  · rw [live]
    have kept := aside (invocationOf config request context) assembled.files
      (called request config context assembled) rfl
    rcases kept.ending with ⟨_, after, run, same⟩ | ⟨fault, after, run, same⟩
    · rw [show (tool (invocationOf config { request with dryRun := false } context)).run.run _ = _
        from run]
      exact same
    · rw [show (tool (invocationOf config { request with dryRun := false } context)).run.run _ = _
        from run]
      exact same
  · rw [dry]
    cases assembled.files.readForDisplay context.dockerfilePath <;> rfl
  · intro dockerfile readable
    rw [dry, show assembled.files.readForDisplay _ = _ from readable]
    exact ⟨_, rfl, by rw [beside.output]⟩
  · intro fault unreadable
    rw [dry, show assembled.files.readForDisplay _ = _ from unreadable]
    exact ⟨_, rfl, beside.output⟩

/-- A dry run succeeds exactly if the live run calls the tool and the Dockerfile can be read there;
it shows that call. A live run that does not come so far fails as the dry run does. -/
theorem dry_run_previews (endless : world.room = none)
    (aside : ∀ invocation files, (tool invocation).Keeps (· = files)) :
    ((∃ context after,
        (run { request with dryRun := true } config tool).run.run world = (.ok context, after)) ↔
      ∃ context atCall, Calls { request with dryRun := false } config world context atCall ∧
        ∃ dockerfile, atCall.files.readForDisplay context.dockerfilePath = .ok dockerfile) ∧
    (∀ context atCall, Calls { request with dryRun := false } config world context atCall →
      Previewed request config tool world context atCall) ∧
    ((∀ context atCall, ¬ Calls { request with dryRun := false } config world context atCall) →
      ∃ fault after,
        (run { request with dryRun := true } config tool).run.run world = (.error fault, after) ∧
        (run { request with dryRun := false } config tool).run.run world =
          (.error fault, after)) := by
  rcases ran : (assemble request config).run.run world with ⟨fault | context, assembled⟩
  · have never : ∀ context atCall,
        ¬ Calls { request with dryRun := false } config world context atCall :=
      fun context atCall => not_calls_of_assemble ran
    have fails := fun dryRun => run_of_not_assembled ran dryRun tool
    refine ⟨⟨?_, ?_⟩, ?_, fun _ => ⟨fault, assembled, fails true, fails false⟩⟩
    · rintro ⟨context, after, succeeds⟩
      cases (fails true).symm.trans succeeds
    · rintro ⟨context, atCall, calls, -⟩
      exact absurd calls (never context atCall)
    · intro context atCall calls
      exact absurd calls (never context atCall)
  · have shown := previewed ran endless aside
    have calls := calls_of_assemble ran
    refine ⟨⟨?_, ?_⟩, ?_, fun never => absurd calls (never _ _)⟩
    · rintro ⟨_, after, succeeds⟩
      refine ⟨context, _, calls, ?_⟩
      cases read : (called request config context assembled).files.readForDisplay
          context.dockerfilePath with
      | ok dockerfile => exact ⟨dockerfile, rfl⟩
      | error fault =>
        obtain ⟨_, fails, -⟩ := shown.unreadable fault read
        cases fails.symm.trans succeeds
    · rintro ⟨_, _, calls', dockerfile, readable⟩
      obtain ⟨rfl, rfl⟩ := calls.unique calls'
      obtain ⟨after, succeeds, -⟩ := shown.shown dockerfile readable
      exact ⟨_, after, succeeds⟩
    · intro _ _ calls'
      obtain ⟨rfl, rfl⟩ := calls.unique calls'
      exact shown

/-- An image with a template, built and shown by a tool that does nothing. -/
theorem dry_run_previews_sample :
    ∃ atCall, Calls sampleRequest {} { files := sampleFiles } sampleContext atCall ∧
      Previewed sampleRequest {} (fun _ => pure ()) { files := sampleFiles } sampleContext
        atCall := by
  obtain ⟨atCall, calls⟩ := sample_calls
  obtain ⟨-, previews, -⟩ := @dry_run_previews { files := sampleFiles } sampleRequest {}
    (fun _ => pure ()) rfl fun _ _ => Action.keeps_pure ()
  exact ⟨atCall, calls, previews _ _ calls⟩

/-! ## A Dockerfile that is a directory -/

/-- The Dockerfile of the source is a directory, which is copied as any other. -/
def directoryFiles : FileSystem where
  entries := [([imageName], .directory), ([imageName, dockerfileName], .directory)]
  distinct := by decide
  rooted := by
    simp only [FileSystem.Rooted, FileSystem.find]
    decide

/-- A live run may call the tool where a dry run fails. -/
theorem dry_run_unfaithful :
    ¬ ∀ (world : World) (request : Request) (config : Config) (tool : Tool), world.room = none →
      (∀ invocation files, (tool invocation).Keeps (· = files)) →
      ((∃ context after,
          (run { request with dryRun := true } config tool).run.run world = (.ok context, after)) ↔
        ∃ context atCall,
          Calls { request with dryRun := false } config world context atCall) := by
  intro faithful
  have same := faithful { files := directoryFiles } sampleRequest {} (fun _ => pure ()) rfl
    fun _ _ => Action.keeps_pure ()
  obtain ⟨atCall, comes⟩ : ∃ atCall, (approach sampleRequest {}).run.run
      { files := directoryFiles } = (.ok ⟨Path.ofString "/image/_docker-build", .plain⟩, atCall) :=
    Action.exists_run_of_toOption (by decide +kernel)
  obtain ⟨context, after, succeeds⟩ := same.2 ⟨_, atCall, rfl, comes⟩
  have fails : ((run { sampleRequest with dryRun := true } {} fun _ => pure ()).run.run
      { files := directoryFiles }).1.toOption = none := by decide +kernel
  rw [succeeds] at fails
  cases fails

end ImageStaging.Build
