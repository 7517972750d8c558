import ImageStaging.Proofs.Template.Overlap
import ImageStaging.Proofs.Template.Pieces

/-!
# The first library and the first failure

The references of a template are obtained one after the other, each from the first library that
holds its path. The first one that cannot be obtained stops the pass: what was copied before stays
in the context, since a copy that fails has only begun to lay the same files, and whatever
references come after it are not looked at.
-/

namespace ImageStaging.Template

open FileSystem (Confined Overlaid)

variable {start : FileSystem} {context : Path} {root : Location} {libraries : List Path}
  {world before after : World} {inner template : Text} {fault : Failure}

/-- Between two worlds a reference was obtained: its path was accepted, and the tree that the first
library has there was copied to the same path of the context. -/
def Obtains (start : FileSystem) (root : Location) (libraries : List Path) (context : Path)
    (inner : Text) (before after : World) : Prop :=
  ∃ path library names count copied,
    containedPath? (Text.trim inner) = some path ∧ path.moves = names.map .enter ∧
    FirstHolder start libraries path library ∧
    (TreeCopy.copy (library.join path) (context.join path)).run.run before = (.ok count, copied) ∧
    Overlaid (start.tree (library.join path)) (root ++ names) before.files copied.files ∧
    after.files = copied.files

/-- Between two worlds references were obtained one after the other. -/
inductive ObtainsEach (start : FileSystem) (root : Location) (libraries : List Path)
    (context : Path) : List Text → World → World → Prop
  | nil (world : World) : ObtainsEach start root libraries context [] world world
  | cons {inner : Text} {rest : List Text} {before middle after : World}
    (first : Obtains start root libraries context inner before middle)
    (further : ObtainsEach start root libraries context rest middle after) :
    ObtainsEach start root libraries context (inner :: rest) before after

/-- A fault that speaks of a reference speaks of the one that was refused. -/
theorem Refuses.fileReference_eq {reference : Text} {reason : ReferenceFault}
    (refuses : Refuses start libraries context inner world (.fileReference reference reason)
      after) : reference = fileReference inner := by
  cases refuses with
  | rejected => rfl
  | unheld => rfl

section Pass

variable (apart : LibrariesApart start root libraries)
include apart

/-- A search in the course of the pass is the search before it. -/
theorem Refuses.at_start (refuses : Refuses world.files libraries context inner world fault after)
    (confined : Confined start context root world.files) :
    Refuses start libraries context inner world fault after := by
  cases refuses with
  | rejected outside => exact .rejected outside
  | unheld contained nowhere =>
    refine .unheld contained fun library member => ?_
    rw [← apart.exists?_eq confined contained member, nowhere library member]
  | uninspected contained split earlier fails =>
    refine .uninspected contained split (fun candidate member => ?_) ?_
    · rw [← apart.exists?_eq confined contained (by simp [split, member]), earlier candidate member]
    · rw [← apart.exists?_eq confined contained (by simp [split]), fails]
  | uncopied contained holder fails =>
    exact .uncopied contained (holder.at_start confined apart contained) fails

/-- A reference is obtained or refused. -/
theorem fetch_obtains (inner : Text) (confined : Confined start context root world.files) :
    (fetch libraries context inner).Ends world
      (fun _ after => Obtains start root libraries context inner world after)
      (fun fault after => Refuses start libraries context inner world fault after) := by
  refine (fetch_copies_or_refuses inner world).mono ?_
    fun _ _ refuses => refuses.at_start apart confined
  rintro _ _ ⟨path, library, count, copied, event, contained, -, holder, copies, rfl⟩
  obtain ⟨names, moves, ends⟩ := copy_held_ends contained holder confined
  exact ⟨path, library, names, count, copied, contained, moves,
    holder.at_start confined apart contained, copies, (ends.of_ok copies).2 apart, rfl⟩

/-- What an earlier reference brought goes on to stand where another one is refused. A copy that
fails has laid some of the files that it would have brought, and the earlier one brought the
same. -/
theorem Refuses.still_stands (refuses : Refuses start libraries context inner world fault after)
    (confined : Confined start context root world.files) {earlier : Text} {place : List Name}
    {entry : Entry} (brings : Brings start libraries earlier place entry)
    (stands : world.files.get? (root ++ place) = some entry) :
    after.files.get? (root ++ place) = some entry := by
  cases refuses with
  | rejected => exact stands
  | unheld => exact stands
  | uninspected => exact stands
  | uncopied contained holder fails =>
    obtain ⟨names, moves, ends⟩ := copy_held_ends contained holder confined
    exact brings.still_stands (fun _ _ => brings_iff contained holder moves)
      ((ends.of_error fails).2 apart) stands

theorem obtainsEach_of_run {references : List Text}
    (confined : Confined start context root world.files)
    (run : (references.forM (fetch libraries context)).run.run world = (.ok ⟨⟩, after)) :
    ObtainsEach start root libraries context references world after := by
  induction references generalizing world with
  | nil =>
    obtain rfl : world = after := (Prod.mk.inj run).2
    exact .nil world
  | cons inner rest ih =>
    change (fetch libraries context inner >>= fun _ =>
      rest.forM (fetch libraries context)).run.run world = _ at run
    rcases (fetch_obtains apart inner confined).ending with
      ⟨_, middle, first, obtains⟩ | ⟨fault, _, fails, _⟩
    · rw [Action.run_bind_of_ok first] at run
      exact .cons obtains (ih ((fetch_ends inner confined).of_ok first).1 run)
    · cases (Action.run_bind_of_error fails).symm.trans run

end Pass

/-! ## The pass -/

/-- A pass ends with the first reference that cannot be fetched, whatever comes behind it. -/
theorem resolveFiles_of_stop {front back : List Text}
    (split : references .file template = front ++ inner :: back)
    (passed : (front.forM (fetch libraries context)).run.run world = (.ok ⟨⟩, before))
    (fails : (fetch libraries context inner).run.run before = (.error fault, after)) :
    (resolveFiles template libraries context).run.run world = (.error fault, after) := by
  have stops : ((references .file template).forM (fetch libraries context)).run.run world =
      (.error fault, after) := by
    rw [split]
    exact Action.run_forM_of_stop passed fails
  rw [resolveFiles_eq]
  exact Action.run_bind_of_error stops

/-- A pass ends as the fetching of its references does. -/
theorem run_resolveFiles (template : Text) (libraries : List Path) (context : Path)
    (world : World) :
    (∃ after, ((references .file template).forM (fetch libraries context)).run.run world =
        (.ok ⟨⟩, after) ∧
      (resolveFiles template libraries context).run.run world =
        (.ok ((cut .file template).fill Text.trim), after)) ∨
    ∃ front inner back before fault after, references .file template = front ++ inner :: back ∧
      (front.forM (fetch libraries context)).run.run world = (.ok ⟨⟩, before) ∧
      (fetch libraries context inner).run.run before = (.error fault, after) ∧
      (resolveFiles template libraries context).run.run world = (.error fault, after) := by
  have isText : withPaths template = (cut .file template).fill Text.trim := substitute_eq _ template
  rcases Action.forM_runs_or_stops (references .file template) (fetch libraries context) world with
    ⟨after, runs⟩ | ⟨front, inner, back, before, fault, after, split, passed, fails⟩
  · refine .inl ⟨after, runs, ?_⟩
    rw [resolveFiles_eq, Action.run_bind_of_ok runs, isText]
    rfl
  · exact .inr ⟨front, inner, back, before, fault, after, split, passed, fails,
      resolveFiles_of_stop split passed fails⟩

section Ending

variable (apart : LibrariesApart start root libraries)
  (confined : Confined start context root world.files)
include apart confined

/-- A pass that succeeds has obtained every reference. -/
theorem resolveFiles_obtains {text : Text}
    (resolves : (resolveFiles template libraries context).run.run world = (.ok text, after)) :
    text = (cut .file template).fill Text.trim ∧
      ObtainsEach start root libraries context (references .file template) world after ∧
      ∀ inner ∈ references .file template, ∀ place entry,
        Brings start libraries inner place entry →
          after.files.get? (root ++ place) = some entry := by
  rcases run_resolveFiles template libraries context world with
    ⟨_, runs, ends⟩ | ⟨_, _, _, _, _, _, _, _, _, ends⟩
  · obtain ⟨isText, rfl⟩ := Prod.mk.inj (ends.symm.trans resolves)
    have fetched := ((forM_fetch_ends _ confined).of_ok runs).2 apart
    exact ⟨(Except.ok.inj isText).symm, obtainsEach_of_run apart confined runs, fetched.present⟩
  · cases ends.symm.trans resolves

/-- A pass that fails has come to a reference that it cannot obtain, all those before it being
obtained, and does not look at those behind it. -/
theorem resolveFiles_refuses
    (fails : (resolveFiles template libraries context).run.run world = (.error fault, after)) :
    ∃ front inner back before, references .file template = front ++ inner :: back ∧
      ObtainsEach start root libraries context front world before ∧
      Refuses start libraries context inner before fault after ∧
      (∀ earlier ∈ front, ∀ place entry, Brings start libraries earlier place entry →
        after.files.get? (root ++ place) = some entry) ∧
      ∀ template' back', references .file template' = front ++ inner :: back' →
        (resolveFiles template' libraries context).run.run world = (.error fault, after) := by
  rcases run_resolveFiles template libraries context world with
    ⟨_, _, ends⟩ | ⟨front, inner, back, before, _, _, split, passed, refused, ends⟩
  · cases ends.symm.trans fails
  · obtain ⟨same, rfl⟩ := Prod.mk.inj (ends.symm.trans fails)
    obtain rfl := Except.error.inj same
    obtain ⟨confinedThen, fetched⟩ := (forM_fetch_ends front confined).of_ok passed
    have refuses := (fetch_obtains apart inner confinedThen).of_error refused
    refine ⟨front, inner, back, before, split, obtainsEach_of_run apart confined passed, refuses,
      ?_, ?_⟩
    · intro earlier member place entry brings
      exact refuses.still_stands apart confinedThen brings
        ((fetched apart).present earlier member place entry brings)
    · intro template' back' split'
      exact resolveFiles_of_stop split' passed refused

end Ending

/-- The first pass takes each reference from the first library that has it and stops at the first
reference that it cannot obtain. The context is as staging leaves one, a directory with only files
and directories in it, and the libraries keep out of it. If the pass succeeds, each placeholder of
the template is replaced by its own path and everything that is referred to stands in the context.
If it fails, it does so for one of the different references: those before it were obtained and still
stand, and those behind it play no part, since for any others in their place the same would be
done. -/
theorem resolveFiles_in_order
    (found : world.files.locate .target context = .ok root)
    (isDirectory : world.files.get? root = some .directory) (plain : world.files.Plain root)
    (apart : LibrariesApart world.files root libraries) :
    ∃ pieces, (∀ other, CutsInto .file template other ↔ other = pieces) ∧
      (∀ text after,
        (resolveFiles template libraries context).run.run world = (.ok text, after) →
          text = pieces.fill Text.trim ∧
          ObtainsEach world.files root libraries context pieces.inners.eraseDups world after ∧
          ∀ inner ∈ pieces.inners, ∀ place entry,
            Brings world.files libraries inner place entry →
              after.files.get? (root ++ place) = some entry) ∧
      ∀ fault after,
        (resolveFiles template libraries context).run.run world = (.error fault, after) →
          ∃ front inner back before, pieces.inners.eraseDups = front ++ inner :: back ∧
            ObtainsEach world.files root libraries context front world before ∧
            Refuses world.files libraries context inner before fault after ∧
            (∀ earlier ∈ front, ∀ place entry,
              Brings world.files libraries earlier place entry →
                after.files.get? (root ++ place) = some entry) ∧
            ∀ template' back', references .file template' = front ++ inner :: back' →
              (resolveFiles template' libraries context).run.run world = (.error fault, after) := by
  have confined := Confined.of_plain found isDirectory plain
  have distinct := references_eq .file template
  refine ⟨cut .file template, fun other => cutsInto_iff, fun text after resolves => ?_,
    fun fault after fails => ?_⟩
  · obtain ⟨isText, obtains, present⟩ := resolveFiles_obtains apart confined resolves
    refine ⟨isText, distinct ▸ obtains, fun inner member => present inner ?_⟩
    rw [distinct]
    exact List.mem_eraseDups.2 member
  · rw [← distinct]
    exact resolveFiles_refuses apart confined fails

def threeReferences : Text :=
  "%%_COMMON/twig%% %%_COMMON/bark%% %%_COMMON/../twig%%".toList

/-- Of three references the first is obtained, the second is in no library, and it does not matter
that the third leaves the library. -/
theorem resolveFiles_in_order_nested :
    ∃ before after, (resolveFiles threeReferences nestedLibraries nestedContext).run.run
        { files := nestedFiles } =
          (.error (.fileReference "_COMMON/bark".toList .inNoLibrary), after) ∧
      ObtainsEach nestedFiles [Layout.nameOf "staged"] nestedLibraries nestedContext
        ["twig".toList] { files := nestedFiles } before ∧
      Refuses nestedFiles nestedLibraries nestedContext "bark".toList before
        (.fileReference "_COMMON/bark".toList .inNoLibrary) after := by
  have fails : (resolveFiles threeReferences nestedLibraries nestedContext).run.run
      { files := nestedFiles } = (.error (.fileReference "_COMMON/bark".toList .inNoLibrary), _) :=
    Action.run_eq_of_fst _ (by decide +kernel)
  obtain ⟨pieces, cuts, -, stops⟩ := @resolveFiles_in_order nestedContext [Layout.nameOf "staged"]
    nestedLibraries { files := nestedFiles } threeReferences (by decide) (by decide)
    (FileSystem.plain_of_entries (by decide)) nestedFiles_apart
  obtain ⟨front, inner, back, before, split, obtains, refuses, -⟩ := stops _ _ fails
  have distinct : references .file threeReferences =
      ["twig".toList, "bark".toList, "../twig".toList] := by decide +kernel
  rw [← (cuts _).1 (cutsInto_cut .file threeReferences), ← references_eq, distinct] at split
  have isBark := refuses.fileReference_eq
  -- neither the reference that is obtained nor the one behind is the one that is refused
  match front, split with
  | [], split =>
    obtain ⟨rfl, -⟩ := List.cons.inj split
    cases isBark
  | [first], split =>
    obtain ⟨rfl, behind⟩ := List.cons.inj split
    obtain ⟨rfl, -⟩ := List.cons.inj behind
    exact ⟨before, _, fails, obtains, refuses⟩
  | [_, _], split =>
    obtain ⟨rfl, -⟩ := List.cons.inj (List.cons.inj (List.cons.inj split).2).2
    cases isBark
  | _ :: _ :: _ :: _, split => simp at split

end ImageStaging.Template
