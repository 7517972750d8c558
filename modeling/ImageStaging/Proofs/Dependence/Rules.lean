import ImageStaging.Proofs.Action
import ImageStaging.Proofs.FileSystem.Same

/-!
# Actions that depend on the files only

Most actions of a build look at the files and change them, write to the log and do nothing else:
what they do is decided by the entries of the file system, in whatever order it lists them. Run in
two worlds with the same entries, such an action ends alike and leaves the same entries, and in
neither world does it print anything, start a tool or ask anything of storage. Each way of putting
actions together has one rule, as for the ends of an action.
-/

namespace ImageStaging

/-- What a run shows and starts. -/
structure World.SameShown (world after : World) : Prop where
  output : after.output = world.output
  room : after.room = world.room
  toolErrors : after.toolErrors = world.toolErrors
  launches : after.launches = world.launches

/-- All of a world that runs act on, apart from the files and the log. -/
structure World.SameBeside (world after : World) : Prop extends World.SameShown world after where
  storage : after.storage = world.storage

namespace World

variable {world middle after : World}

theorem SameShown.refl (world : World) : world.SameShown world :=
  ⟨rfl, rfl, rfl, rfl⟩

theorem SameShown.symm (shown : world.SameShown after) : after.SameShown world :=
  ⟨shown.output.symm, shown.room.symm, shown.toolErrors.symm, shown.launches.symm⟩

theorem SameShown.trans (first : world.SameShown middle) (second : middle.SameShown after) :
    world.SameShown after where
  output := second.output.trans first.output
  room := second.room.trans first.room
  toolErrors := second.toolErrors.trans first.toolErrors
  launches := second.launches.trans first.launches

namespace SameBeside

theorem refl (world : World) : world.SameBeside world :=
  ⟨.refl world, rfl⟩

theorem with_files (world : World) (files : FileSystem) :
    world.SameBeside { world with files } :=
  ⟨⟨rfl, rfl, rfl, rfl⟩, rfl⟩

theorem symm (beside : world.SameBeside after) : after.SameBeside world :=
  ⟨beside.toSameShown.symm, beside.storage.symm⟩

theorem trans (first : world.SameBeside middle) (second : middle.SameBeside after) :
    world.SameBeside after :=
  ⟨first.toSameShown.trans second.toSameShown, second.storage.trans first.storage⟩

end SameBeside

end World

namespace Action

open FileSystem (Respects)

variable {ε δ α β : Type}

/-- What the action does is decided by the files, and the files and the log are all it changes. -/
def OnFiles (action : Action ε α) : Prop :=
  ∀ world other, world.files.Same other.files → ∃ result after after',
    action.run.run world = (result, after) ∧ action.run.run other = (result, after') ∧
      after.files.Same after'.files ∧ world.SameBeside after ∧ other.SameBeside after'

/-- An action on files prints nothing, starts no tool and asks nothing of storage. -/
theorem OnFiles.beside {action : Action ε α} (onFiles : action.OnFiles) (world : World) :
    world.SameBeside (action.run.run world).2 := by
  obtain ⟨result, after, after', run, -, -, beside, -⟩ := onFiles world world (.refl _)
  rw [run]
  exact beside

theorem OnFiles.beside_of_run {action : Action ε α} (onFiles : action.OnFiles)
    {world after : World} {result : Except ε α} (run : action.run.run world = (result, after)) :
    world.SameBeside after := by
  have beside := onFiles.beside world
  rwa [run] at beside

/-- What an action comes to in a world that holds some files and nothing else. -/
def answer (action : Action ε α) (files : FileSystem) : Except ε α :=
  (action.run.run { files }).1

theorem OnFiles.fst_run {action : Action ε α} (onFiles : action.OnFiles) (world : World) :
    (action.run.run world).1 = action.answer world.files := by
  obtain ⟨result, after, after', run, run', -⟩ := onFiles world { files := world.files } (.refl _)
  rw [answer, run, run']

theorem onFiles_pure (value : α) : (pure value : Action ε α).OnFiles := fun world other same =>
  ⟨.ok value, world, other, rfl, rfl, same, .refl world, .refl other⟩

theorem onFiles_throw (fault : ε) : (throw fault : Action ε α).OnFiles := fun world other same =>
  ⟨.error fault, world, other, rfl, rfl, same, .refl world, .refl other⟩

theorem onFiles_note (event : Log.Event) : (note event : Action ε Unit).OnFiles :=
  fun world other same =>
    ⟨.ok (), { world with log := world.log ++ [event] }, { other with log := other.log ++ [event] },
      rfl, rfl, same, ⟨⟨rfl, rfl, rfl, rfl⟩, rfl⟩, ⟨⟨rfl, rfl, rfl, rfl⟩, rfl⟩⟩

theorem onFiles_change (step : Change) : (change step : Action ε Unit).OnFiles :=
  fun _ _ same =>
    ⟨.ok (), _, _, rfl, rfl, same.apply step, ⟨⟨rfl, rfl, rfl, rfl⟩, rfl⟩,
      ⟨⟨rfl, rfl, rfl, rfl⟩, rfl⟩⟩

theorem OnFiles.bind {action : Action ε β} {next : β → Action ε α} (first : action.OnFiles)
    (second : ∀ value, (next value).OnFiles) : (action >>= next).OnFiles := by
  intro world other same
  obtain ⟨result, middle, middle', run, run', same, beside, beside'⟩ := first world other same
  rw [run_bind, run_bind, run, run']
  cases result with
  | error fault => exact ⟨.error fault, middle, middle', rfl, rfl, same, beside, beside'⟩
  | ok value =>
    obtain ⟨result, after, after', run, run', same, further, further'⟩ :=
      second value middle middle' same
    exact ⟨result, after, after', run, run', same, beside.trans further, beside'.trans further'⟩

/-- An action that starts from the world it is run in may look at its files. -/
theorem onFiles_get {next : World → Action ε α}
    (alike : ∀ world other, world.files.Same other.files → next other = next world)
    (each : ∀ world, (next world).OnFiles) : (get >>= next).OnFiles := by
  intro world other same
  have shared : next other = next world := alike world other same
  show ∃ result after after', (next world).run.run world = (result, after) ∧
    (next other).run.run other = (result, after') ∧ _
  rw [shared]
  exact each world world other same

/-- An action that cannot fail gives a value. -/
theorem Ends.exists_run {action : Action ε α} {world : World} {done : α → World → Prop}
    (ends : action.Ends world done fun _ _ => False) :
    ∃ value after, action.run.run world = (.ok value, after) ∧ done value after :=
  ends.ending.resolve_right fun ⟨_, _, _, impossible⟩ => impossible

theorem run_look (question : FileSystem → Except FileFault α) (world : World) :
    (look question).run.run world = (question world.files, world) := by
  have begun : (get : Action FileFault World).run.run world = (.ok world, world) := rfl
  rw [look, run_bind, begun]
  cases asked : question world.files <;> simp only [asked] <;> rfl

theorem onFiles_look {question : FileSystem → Except FileFault α} (respects : Respects question) :
    (look question).OnFiles := by
  refine onFiles_get (fun world other same => ?_) fun world => ?_
  · rw [respects _ _ same]
  · split
    · exact onFiles_pure _
    · exact onFiles_throw _

theorem onFiles_edit {request : FileSystem.Edit} (respects : Respects request) :
    (edit request).OnFiles :=
  (onFiles_look respects).bind onFiles_change

theorem run_attempt (action : Action ε α) (world : World) :
    (attempt action : Action δ (Except ε α)).run.run world =
      (.ok (action.run.run world).1, (action.run.run world).2) := by
  simp only [attempt, ExceptT.run_mk, StateT.run_bind, StateT.run_pure]
  rfl

theorem OnFiles.attempt {action : Action ε α} (onFiles : action.OnFiles) :
    (Action.attempt action : Action δ (Except ε α)).OnFiles := by
  intro world other same
  obtain ⟨result, after, after', run, run', same, beside, beside'⟩ := onFiles world other same
  rw [run_attempt, run_attempt, run, run']
  exact ⟨.ok result, after, after', rfl, rfl, same, beside, beside'⟩

theorem OnFiles.blaming {action : Action ε α} {tell : ε → δ} (onFiles : action.OnFiles) :
    (action.blaming tell).OnFiles := by
  refine onFiles.attempt.bind fun result => ?_
  cases result with
  | ok value => exact onFiles_pure value
  | error fault => exact onFiles_throw (tell fault)

/-- What is asked about the files may be put to any use that does not tell their answers apart. -/
theorem onFiles_asked {question : FileSystem → Except FileFault β}
    {next : Except FileFault β → Action ε α}
    (alike : ∀ files files', files.Same files' → next (question files') = next (question files))
    (each : ∀ answer, (next answer).OnFiles) : (attempt (look question) >>= next).OnFiles := by
  intro world other same
  rw [run_bind, run_bind, run_attempt, run_attempt, run_look, run_look]
  simp only [alike _ _ same]
  exact each _ world other same

/-- A listing may be put to any use for which its order does not matter. -/
theorem onFiles_list {path : Path} {tell : FileFault → ε} {next : List Name → Action ε α}
    (alike : ∀ listing listing', List.Perm listing listing' → next listing' = next listing)
    (each : ∀ listing, (next listing).OnFiles) :
    ((look (·.list path)).blaming tell >>= next).OnFiles := by
  rw [blaming, bind_assoc]
  refine onFiles_asked (fun files files' same => ?_) fun answer => ?_
  · rcases same.list_perm path with
      ⟨fault, listed, listed'⟩ | ⟨listing, listing', listed, listed', perm⟩
    · rw [listed, listed']
    · rw [listed, listed']
      simp only [pure_bind, alike listing listing' perm]
  · cases answer with
    | ok listing => exact (onFiles_pure listing).bind each
    | error fault => exact (onFiles_throw (tell fault)).bind each

theorem OnFiles.foldlM {items : List β} {body : α → β → Action ε α}
    (each : ∀ value, ∀ item ∈ items, (body value item).OnFiles) (start : α) :
    (items.foldlM body start).OnFiles := by
  induction items generalizing start with
  | nil => exact onFiles_pure start
  | cons item rest ih =>
    rw [List.foldlM_cons]
    refine (each start item List.mem_cons_self).bind fun value => ?_
    exact ih (fun value other member => each value other (List.mem_cons_of_mem item member)) value

theorem OnFiles.forM {items : List β} {body : β → Action ε PUnit}
    (each : ∀ item ∈ items, (body item).OnFiles) : (items.forM body).OnFiles := by
  rw [forM_eq_foldlM]
  exact .foldlM (fun _ item member => each item member) ⟨⟩

theorem OnFiles.forIn {items : List β} {body : β → α → Action ε (ForInStep α)}
    (each : ∀ item value, (body item value).OnFiles) (start : α) :
    (ForIn.forIn items start body).OnFiles := by
  induction items generalizing start with
  | nil => exact onFiles_pure start
  | cons item rest ih =>
    rw [List.forIn_cons]
    refine (each item start).bind fun step => ?_
    cases step with
    | done value => exact onFiles_pure value
    | yield value => exact ih value

end Action

end ImageStaging
