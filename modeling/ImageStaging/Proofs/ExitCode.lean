import ImageStaging.Proofs.Executable

/-!
# What an exit code blames

The exit code of a run that stops short is meant to tell whose fault it was: 1 the caller's, who
gave wrong arguments, a wrong configuration or a path that cannot be made absolute, 2 the image
source's, 3 that of staging and 4 that of the build tool. Every failure of the command keeps to
this. A mistake that is found while the arguments are still being read does not: it ends with 2, so
that words that cannot be read are not told apart from an image source that cannot be rendered.
-/

namespace ImageStaging

/-- The faults of the image source. -/
def Failure.OfSource : Failure → Prop
  | .missingDockerfile _ | .fileReference _ _ | .variableReference _ | .variables _ => True
  | _ => False

theorem Failure.exitCode_eq_two_iff {failure : Failure} :
    failure.exitCode = 2 ↔ failure.OfSource := by
  cases failure <;> simp [exitCode, OfSource]

theorem Failure.exitCode_eq_three_iff {failure : Failure} :
    failure.exitCode = 3 ↔ ∃ fault, failure = .staging fault := by
  cases failure <;> simp [exitCode]

theorem Failure.exitCode_eq_four_iff {failure : Failure} :
    failure.exitCode = 4 ↔ ∃ fault, failure = .tool fault := by
  cases failure <;> simp [exitCode]

theorem Failure.OfBuild.exitCode_ne_one {failure : Failure} (ofBuild : failure.OfBuild) :
    failure.exitCode ≠ 1 := by
  rcases ofBuild with (isCode | isCode) | ⟨fault, rfl⟩
  · simp [isCode]
  · simp [isCode]
  · simp [Failure.exitCode]

namespace Executable

variable {spawner : Spawner} {words : List String} {logSetting : Option String} {world : World}
  {failure : Failure}

/-- A mistake is found while the words are read: one is unknown, stands twice, has a value that it
does not take, or lacks one that it takes. -/
def Mistaken (words : List String) : Prop :=
  ∃ stop, Arguments.ofWords words = .error stop ∧ stop.isMistake

/-- The words are read, and then their meaning, the configuration or a path keeps them from being
built. -/
def Refused (words : List String) (files : FileSystem) (failure : Failure) : Prop :=
  ∃ arguments, Arguments.ofWords words = .ok arguments ∧
    Command.Refused arguments files failure

/-- The command that the words ask for stops with a failure. -/
def Fails (spawner : Spawner) (words : List String) (world : World) (failure : Failure) : Prop :=
  ∃ arguments after, Arguments.ofWords words = .ok arguments ∧
    (Command.run arguments (Spawner.tool spawner)).run.run world = (.error failure, after)

/-- The exit code tells the cause as it is documented. -/
structure Documented (spawner : Spawner) (words : List String) (world : World) (code : Nat) :
    Prop where
  caller : (Mistaken words ∨ ∃ failure, Refused words world.files failure) → code = 1
  source : code = 2 → ∃ failure, Fails spawner words world failure ∧ failure.OfSource
  staging : code = 3 → ∃ fault, Fails spawner words world (.staging fault)
  tool : code = 4 → ∃ fault, Fails spawner words world (.tool fault)

/-! ## The failures of a command -/

theorem Refused.fails (refused : Refused words world.files failure) :
    Fails spawner words world failure := by
  obtain ⟨arguments, read, refused⟩ := refused
  exact ⟨arguments, world, read, refused.run_eq _⟩

/-- A command that is not refused comes to a build, which has faults of its own. -/
theorem Fails.refused_or_ofBuild (fails : Fails spawner words world failure) :
    Refused words world.files failure ∨ failure.OfBuild := by
  obtain ⟨arguments, after, read, fails⟩ := fails
  rcases Command.refused_or_builds arguments world with
    ⟨other, refused⟩ | ⟨config, request, accepted, configured, resolved, builds⟩
  · have same := (Prod.mk.inj (fails.symm.trans (refused.run_eq _))).1
    obtain rfl : failure = other := Except.error.inj same
    exact .inl ⟨arguments, read, refused⟩
  · have valid := Command.accepted_of_readConfig configured
    have fault := (Prod.mk.inj (fails.symm.trans (builds _))).1
    rcases built : (Build.run request config (Spawner.tool spawner)).run.run world with
      ⟨other | context, reached⟩
    · rw [built] at fault
      obtain rfl : failure = other := Except.error.inj fault
      exact .inr ((Build.run_fails valid request _).of_run built)
    · rw [built] at fault
      cases fault

theorem refused_iff : Refused words world.files failure ↔
    Fails spawner words world failure ∧ failure.exitCode = 1 := by
  refine ⟨fun refused => ⟨refused.fails, ?_⟩, fun ⟨fails, isCode⟩ => ?_⟩
  · obtain ⟨_, -, refused⟩ := refused
    exact refused.exitCode_eq
  · exact fails.refused_or_ofBuild.resolve_right fun ofBuild => ofBuild.exitCode_ne_one isCode

/-! ## The exit codes -/

theorem exitCode_of_mistaken (mistaken : Mistaken words) :
    (runWith spawner words logSetting world).exitCode = 2 := by
  obtain ⟨stop, read, isMistake⟩ := mistaken
  simp [runWith, read, stopped, isMistake, Arguments.Stop.exitCode]

example (spawner : Spawner) (world : World) :
    (runWith spawner ["--bogus"] none world).exitCode = 2 := by
  rfl

theorem exitCode_of_fails (fails : Fails spawner words world failure) :
    (runWith spawner words logSetting world).exitCode = failure.exitCode := by
  obtain ⟨arguments, after, read, fails⟩ := fails
  rw [runWith, read]
  exact (started_of_run logSetting fails).2.2

/-- Without a mistake in the words, an exit code other than 0 is that of a failure. -/
theorem fails_of_exitCode (unmistaken : ¬ Mistaken words)
    (stops : (runWith spawner words logSetting world).exitCode ≠ 0) :
    ∃ failure, Fails spawner words world failure := by
  rw [runWith] at stops
  cases read : Arguments.ofWords words with
  | error stop =>
    have told : ¬ stop.isMistake := fun isMistake => unmistaken ⟨stop, read, isMistake⟩
    rw [read] at stops
    dsimp only at stops
    rw [exitCode_stopped, Arguments.Stop.exitCode, if_neg told] at stops
    exact absurd rfl stops
  | ok arguments =>
    rw [read] at stops
    rcases ran : (Command.run arguments (Spawner.tool spawner)).run.run world with
      ⟨failure | _, after⟩
    · exact ⟨failure, arguments, after, read, ran⟩
    · exact absurd (started_of_run logSetting ran).2.2 stops

/-- What ends with a code other than 0: the failures of that code and, for 2, the mistakes. -/
theorem exitCode_eq_iff {code : Nat} (stops : code ≠ 0) :
    (runWith spawner words logSetting world).exitCode = code ↔
      (Mistaken words ∧ code = 2) ∨
        ∃ failure, Fails spawner words world failure ∧ failure.exitCode = code := by
  constructor
  · rintro rfl
    by_cases mistaken : Mistaken words
    · exact .inl ⟨mistaken, exitCode_of_mistaken mistaken⟩
    · obtain ⟨failure, fails⟩ := fails_of_exitCode mistaken stops
      exact .inr ⟨failure, fails, (exitCode_of_fails fails).symm⟩
  · rintro (⟨mistaken, rfl⟩ | ⟨failure, fails, rfl⟩)
    · exact exitCode_of_mistaken mistaken
    · exact exitCode_of_fails fails

theorem exitCode_eq_iff_fails {code : Nat} (stops : code ≠ 0) (differs : code ≠ 2) :
    (runWith spawner words logSetting world).exitCode = code ↔
      ∃ failure, Fails spawner words world failure ∧ failure.exitCode = code := by
  simp only [exitCode_eq_iff stops, differs, and_false, false_or]

theorem exitCode_eq_one_iff : (runWith spawner words logSetting world).exitCode = 1 ↔
    ∃ failure, Refused words world.files failure :=
  (exitCode_eq_iff_fails (by decide) (by decide)).trans (exists_congr fun _ => refused_iff.symm)

theorem exitCode_eq_two_iff : (runWith spawner words logSetting world).exitCode = 2 ↔
    Mistaken words ∨ ∃ failure, Fails spawner words world failure ∧ failure.OfSource := by
  simp only [exitCode_eq_iff (show 2 ≠ 0 by decide), Failure.exitCode_eq_two_iff, and_true]

/-- A code of one kind of failure only. -/
theorem exitCode_eq_iff_of_kind {α : Type} {kind : α → Failure} {code : Nat} (stops : code ≠ 0)
    (differs : code ≠ 2)
    (isKind : ∀ {failure : Failure}, failure.exitCode = code ↔ ∃ fault, failure = kind fault) :
    (runWith spawner words logSetting world).exitCode = code ↔
      ∃ fault, Fails spawner words world (kind fault) := by
  rw [exitCode_eq_iff_fails stops differs]
  constructor
  · rintro ⟨failure, fails, isCode⟩
    obtain ⟨fault, rfl⟩ := isKind.1 isCode
    exact ⟨fault, fails⟩
  · rintro ⟨fault, fails⟩
    exact ⟨kind fault, fails, isKind.2 ⟨fault, rfl⟩⟩

theorem exitCode_eq_three_iff : (runWith spawner words logSetting world).exitCode = 3 ↔
    ∃ fault, Fails spawner words world (.staging fault) :=
  exitCode_eq_iff_of_kind (by decide) (by decide) Failure.exitCode_eq_three_iff

theorem exitCode_eq_four_iff : (runWith spawner words logSetting world).exitCode = 4 ↔
    ∃ fault, Fails spawner words world (.tool fault) :=
  exitCode_eq_iff_of_kind (by decide) (by decide) Failure.exitCode_eq_four_iff

theorem documented_iff :
    Documented spawner words world (runWith spawner words logSetting world).exitCode ↔
      ¬ Mistaken words := by
  constructor
  · intro documented mistaken
    have asCaller := documented.caller (.inl mistaken)
    rw [exitCode_of_mistaken mistaken] at asCaller
    cases asCaller
  · intro unmistaken
    refine ⟨?_, ?_, exitCode_eq_three_iff.1, exitCode_eq_four_iff.1⟩
    · rintro (mistaken | refused)
      · exact absurd mistaken unmistaken
      · exact exitCode_eq_one_iff.2 refused
    · intro isCode
      exact (exitCode_eq_two_iff.1 isCode).resolve_left unmistaken

/-- The exit code tells the cause of a failure as it is documented unless the words hold a mistake.
Each code has its own causes but for 2, which also stands for such a mistake. -/
theorem exit_code_blames (spawner : Spawner) (words : List String) (logSetting : Option String)
    (world : World) :
    (Documented spawner words world (runWith spawner words logSetting world).exitCode ↔
      ¬ Mistaken words) ∧
    ((runWith spawner words logSetting world).exitCode = 1 ↔
      ∃ failure, Refused words world.files failure) ∧
    ((runWith spawner words logSetting world).exitCode = 2 ↔
      Mistaken words ∨ ∃ failure, Fails spawner words world failure ∧ failure.OfSource) ∧
    ((runWith spawner words logSetting world).exitCode = 3 ↔
      ∃ fault, Fails spawner words world (.staging fault)) ∧
    ((runWith spawner words logSetting world).exitCode = 4 ↔
      ∃ fault, Fails spawner words world (.tool fault)) :=
  ⟨documented_iff, exitCode_eq_one_iff, exitCode_eq_two_iff, exitCode_eq_three_iff,
    exitCode_eq_four_iff⟩

end Executable

end ImageStaging
