import ImageStaging.Proofs.Build.Confinement
import ImageStaging.Proofs.Dependence.Alike
import ImageStaging.Proofs.Dependence.Build

/-!
# A build forgets the one before

What stands at the place of the context when a build begins makes no difference to it. Two runs
whose files differ there only come to the same, and if their resets succeed, to the same files. So a
build that is repeated comes to the same again, unless the first run began by making a part of the
way to the context: the reset takes no notice of what comes into reach by that, and what it makes
stays if it fails.
-/

namespace ImageStaging.Build

open FileSystem (AgreeOff Fresh Site Straight checkPath)
open Layout (contextName)
open ImageStaging.Action (Ends EndsAlike endsAlike_modify endsAlike_print endsAlike_pure
  endsAlike_throw onFiles_look onFiles_note onFiles_pure)

variable {world other : World} {request : Request} {config : Config} {tool tool' : Tool}
  {directory root : Location} {files : FileSystem} {name : Name}

/-! ## Runs in worlds that are alike -/

/-- Called alike in worlds that are alike, the two tools do the same. -/
def SameTools (tool tool' : Tool) : Prop :=
  ∀ (invocation : Invocation) (world other : World), world.Alike other →
    EndsAlike (tool invocation) (tool' invocation) world other

theorem onFiles_clear (request : Request) (config : Config) : (clear request config).OnFiles :=
  (onFiles_announce request config).bind fun _ => (Staging.onFiles_reset _).blaming

theorem onStorage_furnish (request : Request) (config : Config) :
    (furnish request config).OnStorage := by
  refine (Staging.onFiles_fill _ _).onStorage.bind fun context => ?_
  refine (onStorage_renderTemplate context request).bind fun _ => ?_
  exact ((onFiles_finalize context).blaming.bind fun _ => onFiles_pure context).onStorage

theorem deliver_alike (tools : SameTools tool tool') (alike : world.Alike other)
    (context : BuildContext) :
    EndsAlike (deliver context request config tool) (deliver context request config tool')
      world other := by
  unfold deliver
  dsimp only
  split
  · have looks : (Action.look (·.readForDisplay context.dockerfilePath)).OnFiles :=
      onFiles_look fun _ _ same => same.readForDisplay_eq _
    refine (looks.blaming.endsAlike alike).bind fun dockerfile _ _ alike => ?_
    refine EndsAlike.blaming ((endsAlike_print _ alike).bind fun whole _ _ alike => ?_)
    split
    · exact endsAlike_pure _ alike
    · exact endsAlike_throw _ alike
  · refine ((onFiles_note _).endsAlike alike).bind fun _ _ _ alike => ?_
    refine EndsAlike.bind (endsAlike_modify ?_) fun _ _ _ alike => (tools _ _ _ alike).blaming
    exact ⟨⟨⟨alike.output, alike.room, alike.toolErrors, by rw [alike.launches]⟩, alike.storage⟩,
      alike.files⟩

theorem complete_alike (tools : SameTools tool tool') (alike : world.Alike other) :
    EndsAlike (complete request config tool) (complete request config tool') world other := by
  refine ((onStorage_furnish request config).alike alike).bind fun context _ _ alike => ?_
  exact (deliver_alike tools alike context).bind fun _ _ _ alike => endsAlike_pure context alike

theorem run_alike (tools : SameTools tool tool') (alike : world.Alike other) :
    EndsAlike (run request config tool) (run request config tool') world other := by
  rw [run_eq_clear, run_eq_clear]
  exact ((onFiles_clear request config).endsAlike alike).bind fun _ _ _ alike =>
    complete_alike tools alike

/-! ## Clearing twice -/

theorem clear_site_ends (accepted : config.validate = .ok ())
    (named : Path.ofString config.contextDirectory = name.toPath)
    (site : Site world.files request.source directory name) :
    (clear request config).Ends world
      (fun _ after => checkPath (request.source.join name.toPath) = .ok () ∧
        FileSystem.Cleared (directory ++ [name]) world.files after.files)
      (fun fault _ => ∃ cause, checkPath (request.source.join name.toPath) = .error cause ∧
        fault = .staging (.inspectContext (request.source.join name.toPath) cause)) := by
  unfold clear
  simp only [Action.ends_bind, Action.ends_blaming]
  refine (announce_accepted accepted).mono ?_ fun _ _ impossible => impossible.elim
  intro _ announced same
  rw [Request.contextPath, named]
  rw [← same] at site ⊢
  refine (Staging.reset_ends site).mono (fun _ _ cleared => cleared) ?_
  rintro _ _ ⟨-, cause, checked, rfl⟩
  exact ⟨cause, checked, rfl⟩

/-- Clearing again comes to the empty context that there was, whatever has been done in it. -/
theorem clear_again_ends (accepted : config.validate = .ok ())
    (named : Path.ofString config.contextDirectory = name.toPath)
    (fresh : Fresh files request.source directory name)
    (agree : AgreeOff (directory ++ [name]) files world.files) :
    (clear request config).Ends world (fun _ after => files.Same after.files)
      (fun _ _ => False) := by
  refine (clear_site_ends accepted named (fresh.toSite.agree agree)).mono ?_ ?_
  · rintro _ after ⟨-, cleared⟩
    exact fresh.same agree cleared
  · rintro _ _ ⟨cause, checked, -⟩
    cases fresh.checked.symm.trans checked

theorem clear_of_reset (accepted : config.validate = .ok ())
    (resets : (Staging.reset (request.contextPath config.contextDirectory)).answer world.files =
      .ok ()) : ∃ middle, (clear request config).run.run world = (.ok (), middle) := by
  have announces : (announce request config).Ends world _ _ := announce_accepted accepted
  obtain ⟨⟨⟩, announced, run, sameFiles⟩ := announces.exists_run
  have onFiles := Staging.onFiles_reset (request.contextPath config.contextDirectory)
  have result := onFiles.fst_run announced
  rw [sameFiles, resets] at result
  unfold clear
  rw [Action.run_bind_of_ok run, Action.run_blaming, Action.run_eq_of_fst _ result]
  exact ⟨_, rfl⟩

/-- A reset that leaves the files as they were if it fails. -/
structure ResetsCleanly (files : FileSystem) (request : Request) (config : Config) : Prop where
  ends : (Staging.reset (request.contextPath config.contextDirectory)).Ends { files }
    (fun _ _ => True) fun _ after => files.Same after.files

/-- It does so where there is a source directory. -/
theorem resetsCleanly_of_site (named : Path.ofString config.contextDirectory = name.toPath)
    (site : Site files request.source directory name) : ResetsCleanly files request config := by
  constructor
  rw [Request.contextPath, named]
  have resets : (Staging.reset (request.source.join name.toPath)).Ends { files } _ _ :=
    Staging.reset_ends site
  refine resets.mono (fun _ _ _ => trivial) ?_
  rintro _ _ ⟨rfl, -⟩
  exact .refl files

theorem reset_answer_of_site (named : Path.ofString config.contextDirectory = name.toPath)
    (site : Site files request.source directory name)
    (checked : checkPath (request.source.join name.toPath) = .ok ()) :
    (Staging.reset (request.contextPath config.contextDirectory)).answer files = .ok () := by
  rw [Request.contextPath, named]
  have resets : (Staging.reset (request.source.join name.toPath)).Ends { files } _ _ :=
    Staging.reset_ends site
  rcases resets.ending with ⟨⟨⟩, _, run, -⟩ | ⟨_, _, -, -, _, failed, -⟩
  · rw [Action.answer, run]
  · cases checked.symm.trans failed

theorem clear_clean_ends (accepted : config.validate = .ok ())
    (clean : ResetsCleanly world.files request config) :
    (clear request config).Ends world (fun _ _ => True)
      (fun _ after => world.files.Same after.files) := by
  unfold clear
  simp only [Action.ends_bind, Action.ends_blaming]
  refine (announce_accepted accepted).mono ?_ fun _ _ impossible => impossible.elim
  intro _ announced sameFiles
  obtain ⟨result, after, after', run, run', same, -⟩ :=
    Staging.onFiles_reset (request.contextPath config.contextDirectory) announced
      { files := world.files } (sameFiles ▸ .refl _)
  have unchanged := clean.ends
  unfold Ends at unchanged ⊢
  rw [run'] at unchanged
  rw [run]
  cases result with
  | ok => trivial
  | error fault => exact unchanged.trans same.symm

/-! ## Two runs with different files at the context -/

/-- Entries are the same but for what is at and below the context. -/
structure AgreeAround (files : FileSystem) (request : Request) (config : Config)
    (other : FileSystem) : Prop where
  workingDirectory : other.workingDirectory = files.workingDirectory
  get? : ∀ place, (∀ root, ContextAt files request config root → ¬ root <+: place) →
    other.get? place = files.get? place

theorem AgreeAround.agreeOff {other : FileSystem}
    (around : AgreeAround files request config other)
    (contextAt : ContextAt files request config root) : AgreeOff root files other := by
  refine ⟨around.workingDirectory, fun place outside => around.get? place ?_⟩
  intro root' contextAt'
  rwa [← contextAt.unique contextAt']

theorem AgreeAround.of_agreeOff {other : FileSystem}
    (contextAt : ContextAt files request config root) (agree : AgreeOff root files other) :
    AgreeAround files request config other :=
  ⟨agree.workingDirectory, fun place outside => agree.get? place (outside root contextAt)⟩

/-- Where there is no directory for a context to be in, nothing is at and below one. -/
theorem AgreeAround.same {other : FileSystem} (around : AgreeAround files request config other)
    (nowhere : ∀ directory, files.locate .target request.source = .ok directory →
      ∀ name : Name, Path.ofString config.contextDirectory = name.toPath →
        files.get? directory ≠ some .directory) : files.Same other := by
  refine ⟨around.workingDirectory, fun place => ?_⟩
  by_cases inside : ∃ root, ContextAt files request config root ∧ root <+: place
  · obtain ⟨_, contextAt, inside⟩ := inside
    have agree := around.agreeOff contextAt
    obtain ⟨directory, name, found, named, rfl⟩ := contextAt
    obtain ⟨rest, rfl⟩ := inside
    have notDirectory := nowhere directory found name named
    have notDirectory' : other.get? directory ≠ some .directory := by
      rwa [agree.get? directory (Site.child_not_above name)]
    rw [List.append_assoc, FileSystem.get?_below_of_not_directory notDirectory (by simp),
      FileSystem.get?_below_of_not_directory notDirectory' (by simp)]
  · exact around.get? place fun root contextAt below => inside ⟨root, contextAt, below⟩

theorem clear_forgets_site (accepted : config.validate = .ok ())
    (named : Path.ofString config.contextDirectory = name.toPath)
    (site : Site world.files request.source directory name)
    (agree : AgreeOff (directory ++ [name]) world.files other.files)
    (beside : world.SameBeside other) :
    ∃ result middle middle', (clear request config).run.run world = (result, middle) ∧
      (clear request config).run.run other = (result, middle') ∧ middle.SameBeside middle' ∧
      (result = .ok () → middle.files.Same middle'.files) := by
  have quiet := onFiles_clear request config
  have stays : ∀ {result result' middle middle'},
      (clear request config).run.run world = (result, middle) →
      (clear request config).run.run other = (result', middle') → middle.SameBeside middle' :=
    fun run run' => (quiet.beside_of_run run).symm.trans (beside.trans (quiet.beside_of_run run'))
  rcases (clear_site_ends accepted named site).ending with
    ⟨⟨⟩, middle, run, checked, cleared⟩ | ⟨_, middle, run, cause, checked, rfl⟩
  · have again := clear_again_ends accepted named (site.fresh checked cleared)
      (cleared.agreeOff.symm.trans agree)
    obtain ⟨⟨⟩, middle', run', same⟩ := again.exists_run
    exact ⟨.ok (), middle, middle', run, run', stays run run', fun _ => same⟩
  · -- The path of the context cannot be looked up, whatever the files are.
    rcases (clear_site_ends accepted named (site.agree agree)).ending with
      ⟨⟨⟩, middle', run', checked', -⟩ | ⟨_, middle', run', cause', checked', rfl⟩
    · cases checked.symm.trans checked'
    · obtain rfl := Except.error.inj (checked.symm.trans checked')
      exact ⟨_, middle, middle', run, run', stays run run', nofun⟩

theorem clear_forgets (accepted : config.validate = .ok ())
    (apart : ∀ root, ContextAt world.files request config root →
      world.files.Avoids root request.source)
    (around : AgreeAround world.files request config other.files)
    (beside : world.SameBeside other) :
    ∃ result middle middle', (clear request config).run.run world = (result, middle) ∧
      (clear request config).run.run other = (result, middle') ∧ middle.SameBeside middle' ∧
      (result = .ok () → middle.files.Same middle'.files) := by
  by_cases there : ∃ directory, ∃ name : Name,
      world.files.locate .target request.source = .ok directory ∧
        Path.ofString config.contextDirectory = name.toPath ∧
          world.files.get? directory = some .directory
  · obtain ⟨directory, name, found, named, isDirectory⟩ := there
    have contextAt : ContextAt world.files request config (directory ++ [name]) :=
      ⟨directory, name, found, named, rfl⟩
    exact clear_forgets_site accepted named ⟨found, isDirectory, apart _ contextAt⟩
      (around.agreeOff contextAt) beside
  · have same : world.files.Same other.files :=
      around.same fun directory found name named isDirectory =>
        there ⟨directory, name, found, named, isDirectory⟩
    obtain ⟨result, middle, middle', run, run', alike⟩ :=
      (onFiles_clear request config).endsAlike ⟨beside, same⟩
    exact ⟨result, middle, middle', run, run', alike.toSameBeside, fun _ => alike.files⟩

theorem run_forgets (accepted : config.validate = .ok ())
    (apart : ∀ root, ContextAt world.files request config root →
      world.files.Avoids root request.source)
    (around : AgreeAround world.files request config other.files)
    (beside : world.SameBeside other) (tools : SameTools tool tool') :
    ∃ result after after', (run request config tool).run.run world = (result, after) ∧
      (run request config tool').run.run other = (result, after') ∧ after.SameBeside after' ∧
      ((Staging.reset (request.contextPath config.contextDirectory)).answer world.files = .ok () →
        after.files.Same after'.files) := by
  obtain ⟨result, middle, middle', cleared, cleared', beside, same⟩ :=
    clear_forgets accepted apart around beside
  rw [run_eq_clear, run_eq_clear]
  cases result with
  | error fault =>
    refine ⟨.error fault, middle, middle', Action.run_bind_of_error cleared,
      Action.run_bind_of_error cleared', beside, fun resets => ?_⟩
    obtain ⟨_, succeeded⟩ := clear_of_reset accepted resets
    cases cleared.symm.trans succeeded
  | ok =>
    rw [Action.run_bind_of_ok cleared, Action.run_bind_of_ok cleared']
    obtain ⟨result, after, after', run, run', alike⟩ :=
      complete_alike tools ⟨beside, same rfl⟩
    exact ⟨result, after, after', run, run', alike.toSameBeside, fun _ => alike.files⟩

/-! ## A run that is repeated -/

theorem run_repeats (accepted : config.validate = .ok ())
    (noSlash : '/' ∉ config.contextDirectory.toList) (nonempty : request.source.bytes ≠ [])
    (straight : Straight world.files request.source)
    (apart : ∀ root, ContextAt world.files request config root →
      world.files.Avoids root request.source)
    (clean : ResetsCleanly world.files request config) (tools : SameTools tool tool)
    (keeps : KeepsOutside tool) :
    ∃ result after after', (run request config tool).run.run world = (result, after) ∧
      (run request config tool).run.run { world with files := after.files } = (result, after') ∧
      after.Alike after' := by
  have clears := (clear_ends accepted noSlash nonempty straight apart).and
    (clear_clean_ends accepted clean)
  rcases clears.ending with
    ⟨⟨⟩, middle, cleared, ⟨directory, name, context⟩, -⟩ | ⟨fault, middle, failed, -, unchanged⟩
  · obtain ⟨result, after, completed⟩ :
        ∃ result after, (complete request config tool).run.run middle = (result, after) :=
      ⟨_, _, rfl⟩
    have agree : AgreeOff (directory ++ [name]) middle.files after.files := by
      rcases (complete_ends keeps context.named context.fresh).ending with
        ⟨_, _, run, agree⟩ | ⟨_, _, run, agree⟩
      all_goals
        cases completed.symm.trans run
        exact agree
    have again : (clear request config).Ends { world with files := after.files } _ _ :=
      clear_again_ends accepted context.named context.fresh agree
    obtain ⟨⟨⟩, middle', cleared', same⟩ := again.exists_run
    have quiet := onFiles_clear request config
    have beside := World.SameBeside.with_files world after.files
    have alike : middle.Alike middle' :=
      ⟨(quiet.beside_of_run cleared).symm.trans (beside.trans (quiet.beside_of_run cleared')), same⟩
    obtain ⟨_, _, after', run, run', alike⟩ := complete_alike tools alike
    cases completed.symm.trans run
    rw [run_eq_clear]
    exact ⟨result, after, after', (Action.run_bind_of_ok cleared).trans completed,
      (Action.run_bind_of_ok cleared').trans run', alike⟩
  · have stopped : (run request config tool).run.run world = (.error fault, middle) := by
      rw [run_eq_clear]
      exact Action.run_bind_of_error failed
    have alike : world.Alike { world with files := middle.files } :=
      ⟨.with_files world middle.files, unchanged⟩
    obtain ⟨_, _, after', run, run', alike⟩ := run_alike tools alike
    cases stopped.symm.trans run
    exact ⟨_, middle, after', stopped, run', alike⟩

/-- What stands at and below the context when a run begins, be it nothing, a file, a link or what a
previous build left, makes no difference to its result, to its output and to the calls of the tool,
nor to the files it leaves if its reset succeeds. So a run that is repeated, with a tool that keeps
to the context, comes to the same result and the same files. For that the path of the source does
not turn back once it has run out, and a reset that fails has not made a part of the way to the
context. -/
theorem previous_build_forgotten (accepted : config.validate = .ok ())
    (noSlash : '/' ∉ config.contextDirectory.toList)
    (apart : ∀ root, ContextAt world.files request config root →
      world.files.Avoids root request.source) :
    (∀ other tool tool', AgreeAround world.files request config other.files →
      world.SameBeside other → SameTools tool tool' →
      ∃ result after after', (run request config tool).run.run world = (result, after) ∧
        (run request config tool').run.run other = (result, after') ∧ after.SameBeside after' ∧
        ((Staging.reset (request.contextPath config.contextDirectory)).answer world.files =
          .ok () → after.files.Same after'.files)) ∧
    (request.source.bytes ≠ [] →
      Straight world.files request.source → ResetsCleanly world.files request config →
      ∀ tool, SameTools tool tool → KeepsOutside tool →
      ∃ result after after', (run request config tool).run.run world = (result, after) ∧
        (run request config tool).run.run { world with files := after.files } =
          (result, after') ∧ after.Alike after') := by
  constructor
  · intro other tool tool' around beside tools
    exact run_forgets accepted apart around beside tools
  · intro nonempty straight clean tool tools keeps
    exact run_repeats accepted noSlash nonempty straight apart clean tools keeps

/-- A link in the place of the context is forgotten, and so is the run that replaced it. -/
theorem previous_build_forgotten_link :
    (∃ result after after',
      (run sampleRequest {} fun _ => pure ()).run.run { files := linkedContextFiles } =
        (result, after) ∧
      (run sampleRequest {} fun _ => pure ()).run.run { files := sampleFiles } =
        (result, after') ∧ after.files.Same after'.files) ∧
    ∃ result after after',
      (run sampleRequest {} fun _ => pure ()).run.run { files := linkedContextFiles } =
        (result, after) ∧
      (run sampleRequest {} fun _ => pure ()).run.run { files := after.files } =
        (result, after') ∧ after.Alike after' := by
  have agree := linked_agree
  -- Only that the link stands where it does matters from here on.
  generalize linkedContextFiles = files at agree ⊢
  have site := sample_site agree
  have named : Path.ofString ({} : Config).contextDirectory = contextName.toPath := rfl
  have tools : SameTools (fun _ => pure ()) fun _ => pure () :=
    fun _ _ _ alike => endsAlike_pure () alike
  have keeps : KeepsOutside fun _ => pure () := fun _ _ _ _ => AgreeOff.refl _ _
  obtain ⟨forgets, repeats⟩ := @previous_build_forgotten { files } sampleRequest {} (by decide)
    (by decide) fun _ => sample_apart agree
  have around : AgreeAround files sampleRequest {} sampleFiles :=
    .of_agreeOff (sample_contextThere agree) agree.symm
  constructor
  · obtain ⟨result, after, after', run, run', -, same⟩ :=
      forgets { files := sampleFiles } _ _ around (.with_files _ _) tools
    exact ⟨result, after, after', run, run', same (reset_answer_of_site named site (by decide))⟩
  · have straight := FileSystem.straight_of_locate site.found
    obtain ⟨result, after, after', run, run', alike⟩ := repeats (by decide) straight
      (resetsCleanly_of_site named site) _ tools keeps
    exact ⟨result, after, after', run, run', alike⟩

end ImageStaging.Build
