import ImageStaging.Proofs.Dependence.Rules

/-!
# Actions that end alike in two worlds

Two worlds are alike if they differ in their logs at most. Two actions, each begun in its own world,
end alike if they give the same value or the same fault and leave worlds that are alike. An action
on files ends alike in any two worlds that are alike, and so does one that writes and syncs files,
which may fail as storage has it; for what prints and what starts a tool there are rules of its own,
and what is put together from such actions goes on from where they end.
-/

namespace ImageStaging

/-- The files have the same entries, the same has been shown and started, and storage answers
alike. -/
structure World.Alike (world other : World) : Prop extends World.SameBeside world other where
  files : world.files.Same other.files

theorem World.Alike.refl (world : World) : world.Alike world :=
  ⟨.refl world, .refl world.files⟩

namespace Action

variable {ε δ α β : Type} {world other : World}

/-- Each begun in its own world, the two actions come to the same and leave worlds that are
alike. -/
def EndsAlike (action action' : Action ε α) (world other : World) : Prop :=
  ∃ result after after', action.run.run world = (result, after) ∧
    action'.run.run other = (result, after') ∧ after.Alike after'

theorem endsAlike_pure (value : α) (alike : world.Alike other) :
    EndsAlike (pure value : Action ε α) (pure value) world other :=
  ⟨.ok value, world, other, rfl, rfl, alike⟩

theorem endsAlike_throw (fault : ε) (alike : world.Alike other) :
    EndsAlike (throw fault : Action ε α) (throw fault) world other :=
  ⟨.error fault, world, other, rfl, rfl, alike⟩

theorem endsAlike_modify {step : World → World} (alike : (step world).Alike (step other)) :
    EndsAlike (modify step : Action ε PUnit) (modify step) world other :=
  ⟨.ok ⟨⟩, step world, step other, rfl, rfl, alike⟩

theorem OnFiles.endsAlike {action : Action ε α} (onFiles : action.OnFiles)
    (alike : world.Alike other) : EndsAlike action action world other := by
  obtain ⟨result, after, after', run, run', same, beside, beside'⟩ :=
    onFiles world other alike.files
  exact ⟨result, after, after', run, run', beside.symm.trans (alike.toSameBeside.trans beside'),
    same⟩

theorem EndsAlike.bind {action action' : Action ε β} {next next' : β → Action ε α}
    (first : EndsAlike action action' world other)
    (second : ∀ value after after', after.Alike after' →
      EndsAlike (next value) (next' value) after after') :
    EndsAlike (action >>= next) (action' >>= next') world other := by
  obtain ⟨result, middle, middle', run, run', alike⟩ := first
  rw [EndsAlike, run_bind, run_bind, run, run']
  cases result with
  | error fault => exact ⟨.error fault, middle, middle', rfl, rfl, alike⟩
  | ok value => exact second value middle middle' alike

theorem EndsAlike.blaming {action action' : Action ε α} {tell : ε → δ}
    (ends : EndsAlike action action' world other) :
    EndsAlike (action.blaming tell) (action'.blaming tell) world other := by
  obtain ⟨result, after, after', run, run', alike⟩ := ends
  rw [EndsAlike, run_blaming, run_blaming, run, run']
  cases result with
  | error fault => exact ⟨.error (tell fault), after, after', rfl, rfl, alike⟩
  | ok value => exact ⟨.ok value, after, after', rfl, rfl, alike⟩

theorem run_print (bytes : Bytes) (world : World) :
    (print bytes : Action ε Bool).run.run world =
      (.ok (world.room.all (bytes.length ≤ ·)), { world with
        output := world.output ++ world.taken bytes
        room := world.room.map (· - bytes.length) }) := rfl

/-- Standard output takes as many bytes in one world as in the other. -/
theorem endsAlike_print (bytes : Bytes) (alike : world.Alike other) :
    EndsAlike (print bytes : Action ε Bool) (print bytes) world other := by
  obtain ⟨⟨⟨output, room, toolErrors, launches⟩, storage⟩, same⟩ := alike
  have taken : other.taken bytes = world.taken bytes := by
    rw [World.taken, World.taken, room]
  have run' := @run_print ε bytes other
  rw [room, taken] at run'
  exact ⟨_, _, _, rfl, run', ⟨⟨by rw [output], rfl, toolErrors, launches⟩, storage⟩, same⟩

/-! ## Actions on files and storage -/

/-- What the action does is decided by the files and by storage, and it prints nothing and starts
no tool. -/
structure OnStorage (action : Action ε α) : Prop where
  alike : ∀ {world other : World}, world.Alike other → EndsAlike action action world other
  quiet : ∀ world, action.Ends world (fun _ after => world.SameShown after)
    (fun _ after => world.SameShown after)

theorem OnStorage.shown_of_run {action : Action ε α} (onStorage : action.OnStorage)
    {after : World} {result : Except ε α} (run : action.run.run world = (result, after)) :
    world.SameShown after := by
  rcases (onStorage.quiet world).ending with ⟨_, _, run', shown⟩ | ⟨_, _, run', shown⟩
  · cases run.symm.trans run'
    exact shown
  · cases run.symm.trans run'
    exact shown

theorem OnFiles.onStorage {action : Action ε α} (onFiles : action.OnFiles) : action.OnStorage where
  alike := onFiles.endsAlike
  quiet _ := (ends_run action).mono (fun _ _ run => (onFiles.beside_of_run run).toSameShown)
    fun _ _ run => (onFiles.beside_of_run run).toSameShown

theorem OnStorage.bind {action : Action ε β} {next : β → Action ε α} (first : action.OnStorage)
    (second : ∀ value, (next value).OnStorage) : (action >>= next).OnStorage where
  alike alike := (first.alike alike).bind fun value _ _ alike => (second value).alike alike
  quiet world := by
    rw [ends_bind]
    refine (first.quiet world).mono (fun value middle shown => ?_) fun _ _ shown => shown
    exact ((second value).quiet middle).mono (fun _ _ more => shown.trans more)
      fun _ _ more => shown.trans more

theorem EndsAlike.attempt {action action' : Action ε α} (ends : EndsAlike action action' world other) :
    EndsAlike (Action.attempt action : Action δ (Except ε α)) (Action.attempt action') world
      other := by
  obtain ⟨result, after, after', run, run', alike⟩ := ends
  rw [EndsAlike, run_attempt, run_attempt, run, run']
  exact ⟨.ok result, after, after', rfl, rfl, alike⟩

theorem OnStorage.attempt {action : Action ε α} (onStorage : action.OnStorage) :
    (Action.attempt action : Action δ (Except ε α)).OnStorage where
  alike alike := (onStorage.alike alike).attempt
  quiet world := ends_attempt.2 (onStorage.quiet world)

theorem OnStorage.blaming {action : Action ε α} {tell : ε → δ} (onStorage : action.OnStorage) :
    (action.blaming tell).OnStorage where
  alike alike := (onStorage.alike alike).blaming
  quiet world := ends_blaming.2 (onStorage.quiet world)

/-- An action that starts from the world it is run in may look at its files. -/
theorem onStorage_get {next : World → Action ε α}
    (alike : ∀ world other, world.files.Same other.files → next other = next world)
    (each : ∀ world, (next world).OnStorage) : (get >>= next).OnStorage where
  alike {world other} both := by
    show EndsAlike (next world) (next other) world other
    rw [alike world other both.files]
    exact (each world).alike both
  quiet world := (each world).quiet world

theorem onStorage_askStorage : (askStorage : Action ε (Option StorageFault)).OnStorage where
  alike {world other} alike := by
    obtain ⟨⟨shown, storage⟩, same⟩ := alike
    refine ⟨.ok world.storage.head?.join, _, { other with storage := other.storage.tail }, rfl,
      ?_, ⟨⟨shown.output, shown.room, shown.toolErrors, shown.launches⟩, ?_⟩, same⟩
    · rw [← storage]
      rfl
    · rw [storage]
  quiet _ := ends_askStorage.2 ⟨rfl, rfl, rfl, rfl⟩

end Action

end ImageStaging
