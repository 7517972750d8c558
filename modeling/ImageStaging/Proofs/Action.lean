import ImageStaging.World

/-!
# How actions end

`Ends` tells what holds in the world that an action leaves behind, one part for an action that
gives a value and one for an action that fails, since a failed action keeps what it did. Each way
of putting actions together has one rule. `Keeps` is the special case of a property of the files
that holds whenever the action pauses, and what the later modules know of an action they state with
one of the two.
-/

namespace ImageStaging.Action

variable {ε δ α β : Type}

/-- Begun in a world, the action ends as told: with a value or with a fault. -/
def Ends (action : Action ε α) (world : World) (done : α → World → Prop)
    (failed : ε → World → Prop) : Prop :=
  match action.run.run world with
  | (.ok value, after) => done value after
  | (.error fault, after) => failed fault after

/-- All the faults that the action can fail with are of one kind. -/
def FailsOnly (kind : ε → Prop) (action : Action ε α) : Prop :=
  ∀ world, action.Ends world (fun _ _ => True) (fun fault _ => kind fault)

/-- All the values that the action can give are of one kind. -/
def GivesOnly (kind : α → Prop) (action : Action ε α) : Prop :=
  ∀ world, action.Ends world (fun value _ => kind value) (fun _ _ => True)

/-- Whatever the action does with files of which the property holds, it holds afterwards. -/
def Keeps (property : FileSystem → Prop) (action : Action ε α) : Prop :=
  ∀ world, property world.files →
    action.Ends world (fun _ after => property after.files) (fun _ after => property after.files)

section Rules

variable {world : World} {done : α → World → Prop} {failed : ε → World → Prop}

theorem Ends.of_ok {action : Action ε α} (ends : action.Ends world done failed) {value : α}
    {after : World} (run : action.run.run world = (.ok value, after)) : done value after := by
  rw [Ends, run] at ends
  exact ends

theorem Ends.of_error {action : Action ε α} (ends : action.Ends world done failed) {fault : ε}
    {after : World} (run : action.run.run world = (.error fault, after)) : failed fault after := by
  rw [Ends, run] at ends
  exact ends

/-- An action gives a value or fails. -/
theorem Ends.ending {action : Action ε α} (ends : action.Ends world done failed) :
    (∃ value after, action.run.run world = (.ok value, after) ∧ done value after) ∨
      ∃ fault after, action.run.run world = (.error fault, after) ∧ failed fault after := by
  unfold Ends at ends
  generalize action.run.run world = ending at ends
  obtain ⟨result, after⟩ := ending
  cases result with
  | ok value => exact .inl ⟨value, after, rfl, ends⟩
  | error fault => exact .inr ⟨fault, after, rfl, ends⟩

theorem ends_run (action : Action ε α) :
    action.Ends world (fun value after => action.run.run world = (.ok value, after))
      (fun fault after => action.run.run world = (.error fault, after)) := by
  unfold Ends
  split <;> assumption

theorem run_eq_of_toOption {action : Action ε α} {value : α}
    (gives : (action.run.run world).1.toOption = some value) :
    action.run.run world = (.ok value, (action.run.run world).2) := by
  generalize action.run.run world = ending at gives ⊢
  obtain ⟨result, after⟩ := ending
  cases result with
  | ok found =>
    obtain rfl := Option.some.inj gives
    rfl
  | error fault => cases gives

/-- A run that gives a value leaves a world behind. -/
theorem exists_run_of_toOption {action : Action ε α} {value : α}
    (gives : (action.run.run world).1.toOption = some value) :
    ∃ after, action.run.run world = (.ok value, after) :=
  ⟨_, run_eq_of_toOption gives⟩

theorem Ends.mono {action : Action ε α} (ends : action.Ends world done failed)
    {done' : α → World → Prop} {failed' : ε → World → Prop}
    (onDone : ∀ value after, done value after → done' value after)
    (onFailed : ∀ fault after, failed fault after → failed' fault after) :
    action.Ends world done' failed' := by
  unfold Ends at ends ⊢
  split at ends
  · exact onDone _ _ ends
  · exact onFailed _ _ ends

/-- What holds of every value and every fault in every world holds however the action ends. -/
theorem Ends.of_forall {action : Action ε α} (onDone : ∀ value after, done value after)
    (onFailed : ∀ fault after, failed fault after) : action.Ends world done failed := by
  unfold Ends
  split
  · exact onDone _ _
  · exact onFailed _ _

theorem Ends.and {action : Action ε α} (first : action.Ends world done failed)
    {done' : α → World → Prop} {failed' : ε → World → Prop}
    (second : action.Ends world done' failed') :
    action.Ends world (fun value after => done value after ∧ done' value after)
      (fun fault after => failed fault after ∧ failed' fault after) := by
  unfold Ends at *
  split <;> simp_all

@[simp] theorem ends_pure (value : α) :
    (pure value : Action ε α).Ends world done failed ↔ done value world := Iff.rfl

@[simp] theorem ends_throw (fault : ε) :
    (throw fault : Action ε α).Ends world done failed ↔ failed fault world := Iff.rfl

theorem run_bind (action : Action ε β) (next : β → Action ε α) (world : World) :
    (action >>= next).run.run world =
      match action.run.run world with
      | (.ok value, after) => (next value).run.run after
      | (.error fault, after) => (.error fault, after) := by
  simp only [ExceptT.run, bind, ExceptT.bind, ExceptT.mk, StateT.bind, StateT.run,
    ExceptT.bindCont]
  generalize action world = ending
  obtain ⟨result, after⟩ := ending
  cases result <;> rfl

@[simp] theorem ends_bind (action : Action ε β) (next : β → Action ε α) :
    (action >>= next).Ends world done failed ↔
      action.Ends world (fun value after => (next value).Ends after done failed) failed := by
  unfold Ends
  rw [run_bind]
  generalize action.run.run world = ending
  obtain ⟨result, after⟩ := ending
  cases result <;> rfl

@[simp] theorem ends_get {done : World → World → Prop} :
    (get : Action ε World).Ends world done failed ↔ done world world := Iff.rfl

@[simp] theorem ends_modify {done : PUnit → World → Prop} (step : World → World) :
    (modify step : Action ε PUnit).Ends world done failed ↔ done ⟨⟩ (step world) := Iff.rfl

@[simp] theorem ends_note {done : Unit → World → Prop} (event : Log.Event) :
    (note event : Action ε Unit).Ends world done failed ↔
      done () { world with log := world.log ++ [event] } := Iff.rfl

@[simp] theorem ends_change {done : Unit → World → Prop} (step : Change) :
    (change step : Action ε Unit).Ends world done failed ↔
      done () { world with
        files := world.files.apply step, journal := world.journal ++ [step] } := Iff.rfl

theorem ends_print {done : Bool → World → Prop} (bytes : Bytes) :
    (print bytes : Action ε Bool).Ends world done failed ↔
      done (world.room.all (bytes.length ≤ ·)) { world with
        output := world.output ++ world.taken bytes
        room := world.room.map (· - bytes.length) } := Iff.rfl

/-- Standard output that takes enough bytes takes all of them. -/
theorem taken_of_all {bytes : Bytes} (enough : world.room.all (bytes.length ≤ ·) = true) :
    world.taken bytes = bytes := by
  rw [World.taken]
  cases bounded : world.room with
  | none => rfl
  | some room =>
    rw [bounded] at enough
    exact List.take_of_length_le (by simpa using enough)

@[simp] theorem ends_askStorage {done : Option StorageFault → World → Prop} :
    (askStorage : Action ε (Option StorageFault)).Ends world done failed ↔
      done world.storage.head?.join { world with storage := world.storage.tail } := Iff.rfl

theorem ends_look {question : FileSystem → Except FileFault α}
    {failed : FileFault → World → Prop} :
    (look question).Ends world done failed ↔
      (∀ answer, question world.files = .ok answer → done answer world) ∧
        (∀ fault, question world.files = .error fault → failed fault world) := by
  simp only [look, ends_bind, ends_get]
  cases question world.files <;> simp

theorem ends_edit {request : FileSystem.Edit} {done : Unit → World → Prop}
    {failed : FileFault → World → Prop} :
    (edit request).Ends world done failed ↔
      (∀ step, request world.files = .ok step →
        done () { world with
          files := world.files.apply step, journal := world.journal ++ [step] }) ∧
      (∀ fault, request world.files = .error fault → failed fault world) := by
  simp only [edit, ends_bind, ends_look, ends_change]

@[simp] theorem ends_attempt {action : Action ε α} {done : Except ε α → World → Prop}
    {failed : δ → World → Prop} :
    (attempt action : Action δ (Except ε α)).Ends world done failed ↔
      action.Ends world (fun value after => done (.ok value) after)
        (fun fault after => done (.error fault) after) := by
  simp only [Ends, attempt, ExceptT.run_mk, StateT.run_bind, StateT.run_pure]
  generalize action.run.run world = ending
  obtain ⟨result, after⟩ := ending
  cases result <;> rfl

@[simp] theorem ends_blaming {action : Action ε α} {tell : ε → δ} {failed : δ → World → Prop} :
    (action.blaming tell).Ends world done failed ↔
      action.Ends world done fun fault after => failed (tell fault) after := by
  simp only [blaming, ends_bind, ends_attempt, ends_pure, ends_throw]

theorem run_blaming (action : Action ε α) (tell : ε → δ) (world : World) :
    (action.blaming tell).run.run world =
      match action.run.run world with
      | (.ok value, after) => (.ok value, after)
      | (.error fault, after) => (.error (tell fault), after) := by
  rw [blaming, run_bind]
  simp only [attempt, ExceptT.run_mk, StateT.run_bind, StateT.run_pure]
  generalize action.run.run world = ending
  obtain ⟨result, after⟩ := ending
  cases result <;> rfl

/-- What holds of the items gone through holds of all of them in the end, each step knowing which
items come before and after its own. -/
theorem Ends.foldlM_split {items : List β} {body : α → β → Action ε α} {value : α}
    (invariant : List β → α → World → Prop) (starts : invariant [] value world)
    (step : ∀ before item rest, items = before ++ item :: rest → ∀ value after,
      invariant before value after →
        (body value item).Ends after (invariant (before ++ [item])) failed) :
    (items.foldlM body value).Ends world (invariant items) failed := by
  have general : ∀ (rest before : List β) value world, items = before ++ rest →
      invariant before value world →
      (rest.foldlM body value).Ends world (invariant (before ++ rest)) failed := by
    intro rest
    induction rest with
    | nil =>
      intro before value world _ holds
      simpa using holds
    | cons item rest ih =>
      intro before value world split holds
      rw [List.foldlM_cons, ends_bind]
      have first := step before item rest split value world holds
      refine first.mono (fun value after further => ?_) fun _ _ failed => failed
      have later := ih (before ++ [item]) value after (by rw [split]; simp) further
      rwa [List.append_assoc] at later
  exact general items [] value world rfl starts

theorem Ends.foldlM {items : List β} {body : α → β → Action ε α} {value : α}
    (invariant : List β → α → World → Prop) (starts : invariant [] value world)
    (step : ∀ before item, item ∈ items → ∀ value after, invariant before value after →
      (body value item).Ends after (invariant (before ++ [item])) failed) :
    (items.foldlM body value).Ends world (invariant items) failed := by
  refine Ends.foldlM_split invariant starts ?_
  intro before item rest split value after holds
  exact step before item (by simp [split]) value after holds

theorem forM_eq_foldlM (items : List β) (body : β → Action ε PUnit) :
    items.forM body = items.foldlM (fun _ item => body item) ⟨⟩ := by
  induction items with
  | nil => rfl
  | cons item rest ih =>
    rw [List.foldlM_cons]
    exact bind_congr fun _ => ih

theorem Ends.forM {items : List β} {body : β → Action ε PUnit}
    (invariant : List β → World → Prop) (starts : invariant [] world)
    (step : ∀ before item, item ∈ items → ∀ after, invariant before after →
      (body item).Ends after (fun _ => invariant (before ++ [item])) failed) :
    (items.forM body).Ends world (fun _ => invariant items) failed := by
  rw [forM_eq_foldlM]
  refine Ends.foldlM (fun seen _ after => invariant seen after) starts ?_
  intro before item member _ after holds
  exact step before item member after holds

theorem Ends.forIn {items : List β} {body : β → PUnit → Action ε (ForInStep PUnit)}
    (invariant : List β → World → Prop) (starts : invariant [] world)
    (step : ∀ before item, item ∈ items → ∀ after, invariant before after →
      (body item ⟨⟩).Ends after
        (fun next later => next = .yield ⟨⟩ ∧ invariant (before ++ [item]) later) failed) :
    (forIn items ⟨⟩ body).Ends world (fun _ => invariant items) failed := by
  have general : ∀ (rest before : List β) world, (∀ item ∈ rest, item ∈ items) →
      invariant before world →
      (ForIn.forIn rest ⟨⟩ body).Ends world (fun _ => invariant (before ++ rest)) failed := by
    intro rest
    induction rest with
    | nil =>
      intro before world _ holds
      simpa using holds
    | cons item rest ih =>
      intro before world within holds
      rw [List.forIn_cons, ends_bind]
      have first := step before item (within item List.mem_cons_self) world holds
      refine first.mono ?_ fun _ _ failed => failed
      rintro _ after ⟨rfl, further⟩
      have later := ih (before ++ [item]) after
        (fun other member => within other (List.mem_cons_of_mem _ member)) further
      rwa [List.append_assoc] at later
  exact general items [] world (fun _ member => member) starts

/-! ## Where a run comes to -/

theorem run_eq_of_fst {action : Action ε α} (result : Except ε α)
    (gives : (action.run.run world).1 = result) :
    action.run.run world = (result, (action.run.run world).2) :=
  Prod.ext gives rfl

/-- What comes after an action need only agree on the values that it can give. -/
theorem bind_congr_of_ends {action : Action ε β} {next next' : β → Action ε α}
    (same : ∀ world, action.Ends world (fun value _ => next value = next' value)
      fun _ _ => True) : action >>= next = action >>= next' := by
  refine ExceptT.ext (StateT.ext fun world => ?_)
  have runs := run_bind action next world
  have runs' := run_bind action next' world
  rcases (same world).ending with ⟨value, after, run, same⟩ | ⟨fault, after, run, -⟩
  · rw [run] at runs runs'
    simp only [same] at runs
    exact runs.trans runs'.symm
  · rw [run] at runs runs'
    exact runs.trans runs'.symm

theorem run_bind_of_ok {action : Action ε β} {next : β → Action ε α} {value : β} {middle : World}
    (run : action.run.run world = (.ok value, middle)) :
    (action >>= next).run.run world = (next value).run.run middle := by
  rw [run_bind, run]

theorem run_bind_of_error {action : Action ε β} {next : β → Action ε α} {fault : ε} {after : World}
    (run : action.run.run world = (.error fault, after)) :
    (action >>= next).run.run world = (.error fault, after) := by
  rw [run_bind, run]

/-- A loop that comes to a failing item ends as the item does. -/
theorem run_forM_of_stop {front back : List β} {item : β} {body : β → Action ε PUnit}
    {middle after : World} {fault : ε} (passed : (front.forM body).run.run world = (.ok ⟨⟩, middle))
    (fails : (body item).run.run middle = (.error fault, after)) :
    ((front ++ item :: back).forM body).run.run world = (.error fault, after) := by
  induction front generalizing world with
  | nil =>
    cases passed
    exact run_bind_of_error fails
  | cons first front ih =>
    cases here : (body first).run.run world with
    | mk result next =>
      cases result with
      | error fault =>
        change (body first >>= fun _ => front.forM body).run.run world = _ at passed
        cases (run_bind_of_error here).symm.trans passed
      | ok =>
        change (body first >>= fun _ => front.forM body).run.run world = _ at passed
        exact (run_bind_of_ok here).trans (ih ((run_bind_of_ok here).symm.trans passed))

/-- A loop gets through its items or comes to a first one that fails. -/
theorem forM_runs_or_stops (items : List β) (body : β → Action ε PUnit) (world : World) :
    (∃ after, (items.forM body).run.run world = (.ok ⟨⟩, after)) ∨
      ∃ front item back middle fault after, items = front ++ item :: back ∧
        (front.forM body).run.run world = (.ok ⟨⟩, middle) ∧
        (body item).run.run middle = (.error fault, after) := by
  induction items generalizing world with
  | nil => exact .inl ⟨world, rfl⟩
  | cons item rest ih =>
    cases here : (body item).run.run world with
    | mk result middle =>
      cases result with
      | error fault => exact .inr ⟨[], item, rest, world, fault, middle, rfl, rfl, here⟩
      | ok =>
        rcases ih middle with ⟨after, runs⟩ |
          ⟨front, stop, back, beforeStop, fault, after, rfl, passed, fails⟩
        · exact .inl ⟨after, (run_bind_of_ok here).trans runs⟩
        · refine .inr ⟨item :: front, stop, back, beforeStop, fault, after, rfl, ?_, fails⟩
          exact (run_bind_of_ok here).trans passed

end Rules

/-! ## Keeping a property of the files -/

section Keeping

variable {property : FileSystem → Prop}

theorem keeps_pure (value : α) : (pure value : Action ε α).Keeps property := fun _ holds => holds

theorem keeps_throw (fault : ε) : (throw fault : Action ε α).Keeps property := fun _ holds => holds

theorem keeps_note (event : Log.Event) : (note event : Action ε Unit).Keeps property :=
  fun _ holds => holds

theorem keeps_look (question : FileSystem → Except FileFault α) :
    (look question).Keeps property := fun _ holds =>
  ends_look.2 ⟨fun _ _ => holds, fun _ _ => holds⟩

theorem keeps_get : (get : Action ε World).Keeps property := fun _ holds => holds

theorem Keeps.bind {action : Action ε β} {next : β → Action ε α} (first : action.Keeps property)
    (second : ∀ value, (next value).Keeps property) : (action >>= next).Keeps property := by
  intro world holds
  rw [ends_bind]
  exact (first world holds).mono (fun value after kept => second value after kept)
    fun _ _ kept => kept

theorem Keeps.attempt {action : Action ε α} (kept : action.Keeps property) :
    (Action.attempt action : Action δ (Except ε α)).Keeps property := fun world holds =>
  ends_attempt.2 (kept world holds)

theorem Keeps.blaming {action : Action ε α} {tell : ε → δ} (kept : action.Keeps property) :
    (action.blaming tell).Keeps property := fun world holds =>
  ends_blaming.2 (kept world holds)

theorem keeps_print (bytes : Bytes) : (print bytes : Action ε Bool).Keeps property := by
  intro world holds
  exact holds

theorem Keeps.foldlM {items : List β} {body : α → β → Action ε α} {start : α}
    (each : ∀ value, ∀ item ∈ items, (body value item).Keeps property) :
    (items.foldlM body start).Keeps property := by
  induction items generalizing start with
  | nil => exact keeps_pure _
  | cons item rest ih =>
    rw [List.foldlM_cons]
    exact (each start item List.mem_cons_self).bind fun _ =>
      ih fun value other member => each value other (List.mem_cons_of_mem _ member)

end Keeping

/-! ## Failing with one kind of fault -/

section Failing

variable {kind : ε → Prop}

theorem FailsOnly.of_run {action : Action ε α} (fails : action.FailsOnly kind) {world after : World}
    {fault : ε} (run : action.run.run world = (.error fault, after)) : kind fault :=
  (fails world).of_error run

theorem FailsOnly.mono {other : ε → Prop} {action : Action ε α} (fails : action.FailsOnly kind)
    (weaker : ∀ fault, kind fault → other fault) : action.FailsOnly other := fun world =>
  (fails world).mono (fun _ _ _ => trivial) fun fault _ => weaker fault

theorem failsOnly_pure (value : α) : (pure value : Action ε α).FailsOnly kind := fun _ => trivial

theorem failsOnly_throw {fault : ε} (isKind : kind fault) :
    (throw fault : Action ε α).FailsOnly kind := fun _ => isKind

theorem failsOnly_note (event : Log.Event) : (note event : Action ε Unit).FailsOnly kind :=
  fun _ => trivial

theorem FailsOnly.bind {action : Action ε β} {next : β → Action ε α} (first : action.FailsOnly kind)
    (second : ∀ value, (next value).FailsOnly kind) : (action >>= next).FailsOnly kind := by
  intro world
  rw [ends_bind]
  exact (first world).mono (fun value after _ => second value after) fun _ _ isKind => isKind

/-- A fault that is told in other words is of the kind of those words. -/
theorem failsOnly_blaming (action : Action δ α) {tell : δ → ε} (told : ∀ fault, kind (tell fault)) :
    (action.blaming tell).FailsOnly kind := fun _ =>
  ends_blaming.2 ((ends_run action).mono (fun _ _ _ => trivial) fun fault _ _ => told fault)

theorem FailsOnly.forM {items : List β} {body : β → Action ε PUnit}
    (each : ∀ item, (body item).FailsOnly kind) : (items.forM body).FailsOnly kind := fun _ =>
  Ends.forM (fun _ _ => True) trivial fun _ item _ after _ => each item after

end Failing

/-! ## Giving one kind of value -/

section Giving

variable {given : β → Prop} {kind : α → Prop}

theorem GivesOnly.of_run {action : Action ε α} (gives : action.GivesOnly kind) {world after : World}
    {value : α} (run : action.run.run world = (.ok value, after)) : kind value :=
  (gives world).of_ok run

theorem givesOnly_pure {value : α} (isKind : kind value) :
    (pure value : Action ε α).GivesOnly kind := fun _ => isKind

theorem GivesOnly.bind {action : Action ε β} {next : β → Action ε α}
    (first : action.GivesOnly given) (second : ∀ value, given value → (next value).GivesOnly kind) :
    (action >>= next).GivesOnly kind := by
  intro world
  rw [ends_bind]
  exact (first world).mono (fun value after isGiven => second value isGiven after)
    fun _ _ _ => trivial

/-- The last of several actions decides what they give. -/
theorem GivesOnly.last {action : Action ε β} {next : β → Action ε α}
    (second : ∀ value, (next value).GivesOnly kind) : (action >>= next).GivesOnly kind := by
  intro world
  rw [ends_bind]
  exact (ends_run action).mono (fun value after _ => second value after) fun _ _ _ => trivial

end Giving

end ImageStaging.Action
