import ImageStaging.Proofs.Dependence.Rules
import ImageStaging.Proofs.FileSystem.Retention
import ImageStaging.Proofs.Staging.Stage

/-!
# When a staged context is of the flavour that was copied

Populating a context decides on a flavour by asking the source, and staging asks it again once the
context is full. Copying takes nothing away, so a flavour that was found is found again, and a
template always agrees. A name that was passed over as missing is another matter: a link of the
source into the context begins to lead somewhere when something is copied to its end. That is the
only way for the two decisions to differ.
-/

namespace ImageStaging

open FileSystem (Retained)
open ImageStaging.Action (Keeps)

variable {files : FileSystem} {world : World}

/-! ## Copying takes nothing away -/

namespace Files

theorem makeDirectories_retained (path : Path) :
    (makeDirectories path).Keeps (Retained files) := by
  intro world retained
  refine @makeDirectories_keeps world path (fun now => Retained files now.files) ?_ retained
  intro now above here name kept _ out
  refine kept.trans (.place now.files _ fun found stands => ?_)
  cases out.nothing.symm.trans stands

theorem fill_retained (location : Location) (content : Bytes) :
    (fill location content).Keeps (Retained files) := by
  intro world retained
  unfold fill
  split
  · exact retained
  · simp only [Action.ends_bind, Action.ends_get]
    split
    · next stands =>
      refine retained.trans (.place world.files location fun found standing => ?_)
      cases stands.symm.trans standing
      exact .inr ⟨rfl, rfl⟩
    · exact retained

/-- What a path may be written over is a file, once links are followed. -/
theorem keepsKind_of_writable {path : Path} {location : Location} {entry : Option Entry}
    {name : Name} (enters : .enter name ∈ path.moves)
    (found : world.files.writable path = .ok (location, entry))
    (notDevice : entry ≠ some .fullDevice) (content : Bytes) (executable : Bool) :
    ∀ standing, world.files.get? location = some standing →
      FileSystem.KeepsKind standing (.file content executable) := by
  intro standing stands
  cases answer : world.files.resolve .creation path with
  | error fault =>
    rw [FileSystem.writable, answer] at found
    cases found
  | ok ending =>
    obtain ⟨used, few, walk⟩ := FileSystem.leads_of_resolve (by decide) answer
    cases ending with
    | absent directory name =>
      obtain ⟨-, rfl, -⟩ := FileSystem.writable_of_absent answer found
      cases walk.nothing_at_absent.symm.trans stands
    | present place =>
      obtain ⟨rfl, there, rfl, isThere, notDirectory⟩ :=
        FileSystem.writable_of_present answer found
      obtain rfl := Option.some.inj (isThere.symm.trans stands)
      cases there with
      | file => exact .inr ⟨rfl, rfl⟩
      | directory => exact absurd rfl notDirectory
      | link target => exact absurd stands (walk.not_at_link (.inr ⟨name, enters⟩))
      | fullDevice => exact absurd rfl notDevice

theorem transfer_retained (source target : Location) :
    (transfer source target).Keeps (Retained files) := by
  refine Action.keeps_get.bind fun world => ?_
  split
  · exact fill_retained target _
  · exact Action.keeps_pure _

/-- A copy empties a file before it writes it, but it leaves a file. -/
theorem copy_retained (source : Path) {target : Path} {name : Name}
    (enters : .enter name ∈ target.moves) : (copy source target).Keeps (Retained files) := by
  intro world retained
  simp only [copy_eq, Action.ends_bind, Action.ends_look, Action.ends_get]
  refine ⟨fun sourceLocation _ => ?_, fun _ _ => retained⟩
  split
  · next content executable stands =>
    simp only [Action.ends_bind, Action.ends_look]
    refine ⟨?_, fun _ _ => retained⟩
    rintro ⟨location, entry⟩ found
    dsimp only
    split
    · exact transfer_retained sourceLocation location world retained
    · next notDevice =>
      simp only [Action.ends_bind, Action.ends_change]
      refine transfer_retained sourceLocation location _
        (retained.trans (.place world.files location ?_))
      exact keepsKind_of_writable enters found notDevice [] executable
  · exact retained

end Files

namespace TreeCopy

theorem copyFile_retained (source : Path) {target : Path} {name : Name}
    (enters : .enter name ∈ target.moves) : (copyFile source target).Keeps (Retained files) := by
  rw [copyFile_eq]
  have parent : (makeParent target).Keeps (Retained files) := by
    unfold makeParent
    split
    · exact (Files.makeDirectories_retained _).blaming
    · exact Action.keeps_pure _
  refine parent.bind fun _ => ?_
  exact (Files.copy_retained source enters).blaming.bind fun _ => Action.keeps_note _

theorem follow_retained (ancestors : List Ancestor) (path : Path) (entry : Entry) :
    (follow ancestors path entry).Keeps (Retained files) := fun _ retained =>
  (follow_ends ancestors path entry).mono (fun _ _ same => same ▸ retained)
    fun _ _ same => same ▸ retained

theorem visit_retained (source : Path) {target : Path} {name : Name}
    (enters : .enter name ∈ target.moves) (depth : Nat) (ancestors : List Ancestor)
    (path : Path) {relative : Path} (isRelative : relative.isAbsolute = false) (entry : Entry) :
    (visit source target depth ancestors path relative entry).Keeps (Retained files) := by
  induction depth generalizing ancestors path relative entry with
  | zero => exact Action.keeps_throw _
  | succ depth ih =>
    have entersBelow : .enter name ∈ (target.join relative).moves := by
      rw [Path.moves_join isRelative]
      exact List.mem_append_left _ enters
    unfold visit
    refine (follow_retained ancestors path entry).blaming.bind fun found => ?_
    split
    · refine (Action.keeps_look _).attempt.bind fun opened => ?_
      refine (Files.makeDirectories_retained _).blaming.bind fun _ => ?_
      split
      · exact Action.keeps_throw _
      · refine Keeps.foldlM fun copied name _ => Action.keeps_get.bind fun world => ?_
        have relativeBelow : (relative.join name.toPath).isAbsolute = false :=
          (Path.isAbsolute_join (by simp)).trans isRelative
        exact (ih _ _ relativeBelow _).bind fun _ => Action.keeps_pure _
    · exact (copyFile_retained path entersBelow).bind fun _ => Action.keeps_pure _

theorem copy_retained (source : Path) {target : Path} {name : Name}
    (enters : .enter name ∈ target.moves) : (copy source target).Keeps (Retained files) := by
  unfold copy
  refine (Action.keeps_look _).blaming.bind fun entry => ?_
  split
  · exact (copyFile_retained source enters).bind fun _ => Action.keeps_pure _
  · refine (Action.keeps_look _).blaming.bind fun entry => ?_
    exact visit_retained source enters _ _ _ rfl entry

end TreeCopy

/-! ## Deciding twice -/

namespace Staging

open FileSystem (Site)

variable {source context : Path} {begun filled : World} {copied : Option Flavour}

theorem copyDockerfile_retained (source context : Path) (flavour : Option Flavour) :
    (copyDockerfile source context flavour).Keeps (Retained files) := by
  cases flavour with
  | none => exact Action.keeps_pure _
  | some found =>
    have enters := (Path.Descends.refl context).join_name found.name |>.enters
    exact (TreeCopy.copy_retained _ enters).bind fun _ => Action.keeps_pure _

theorem existsAt_retained (path : Path) : (existsAt path).Keeps (Retained files) :=
  (Action.keeps_look _).blaming

theorem copySourceTree_retained (source context : Path) :
    (copySourceTree source context).Keeps (Retained files) := by
  refine (existsAt_retained _).bind fun present => ?_
  split
  · have enters := (Path.Descends.refl context).join_name Layout.sourceTreeName |>.enters
    exact (TreeCopy.copy_retained _ enters).bind fun _ => Action.keeps_note _
  · exact Action.keeps_pure _

/-- Populating asks for the flavour, then copies the file of that flavour and no other, and then the
source tree. -/
theorem populate_steps (source context : Path) :
    (populate source context).Ends begun
      (fun copied filled => Chosen begun.files source copied ∧
        Retained begun.files filled.files ∧ ∃ middle,
          (copyDockerfile source context copied).run.run begun = (.ok (), middle) ∧
            (copySourceTree source context).run.run middle = (.ok (), filled))
      (fun _ _ => True) := by
  rw [populate_eq, Action.ends_bind]
  refine (flavour?_ends source).mono ?_ fun _ _ _ => trivial
  rintro flavour begun ⟨rfl, chosen⟩
  rw [Action.ends_bind]
  have first := copyDockerfile_retained source context flavour begun (.refl begun.files)
  refine ((Action.ends_run _).and first).mono ?_ fun _ _ _ => trivial
  rintro ⟨⟩ middle ⟨ranFirst, kept⟩
  rw [Action.ends_bind]
  have second := copySourceTree_retained source context _ kept
  refine ((Action.ends_run _).and second).mono ?_ fun _ _ _ => trivial
  rintro ⟨⟩ filled ⟨ranSecond, keptThen⟩
  exact ⟨chosen, keptThen, middle, ranFirst, ranSecond⟩

theorem run_existsAt (path : Path) (world : World) :
    (existsAt path).run.run world =
      match world.files.exists? path with
      | .ok answer => (.ok answer, world)
      | .error fault => (.error (.inspect path fault), world) := by
  rw [existsAt, Action.run_blaming, Action.run_look]
  cases world.files.exists? path <;> rfl

theorem flavour?_run {found : Option Flavour} (chosen : Chosen world.files source found) :
    (flavour? source).run.run world = (.ok found, world) := by
  rw [flavour?, Action.run_bind, run_existsAt]
  rcases found with _ | _ | _
  · simp only [chosen.1, Bool.false_eq_true, if_false]
    rw [Action.run_bind, run_existsAt]
    simp only [chosen.2]
    rfl
  · simp only [show world.files.exists? _ = .ok true from chosen]
    rfl
  · simp only [chosen.1, Bool.false_eq_true, if_false]
    rw [Action.run_bind, run_existsAt]
    simp only [chosen.2]
    rfl

theorem classify_of_chosen {flavour : Flavour} (chosen : Chosen world.files source (some flavour)) :
    (classify source).run.run world = (.ok flavour, world) := by
  rw [classify, Action.run_bind, Action.run_blaming, flavour?_run chosen]
  rfl

theorem classify_of_none (chosen : Chosen world.files source none) :
    (classify source).run.run world = (.error (.missingDockerfile source), world) := by
  rw [classify, Action.run_bind, Action.run_blaming, flavour?_run chosen]
  rfl

/-- Only where neither name exists is the Dockerfile missing. -/
theorem classify_missing (source : Path) :
    (classify source).Ends world (fun flavour _ => Chosen world.files source (some flavour))
      (fun fault _ => fault = .missingDockerfile source → Chosen world.files source none) := by
  unfold classify
  simp only [Action.ends_bind, Action.ends_blaming]
  refine (flavour?_ends source).mono ?_ fun _ _ _ impossible => by cases impossible
  rintro found world ⟨rfl, chosen⟩
  cases found with
  | some flavour => exact chosen
  | none => exact fun _ => chosen

/-- After the context has been filled, staging answers as the second decision does. -/
theorem stage_answer (resets : (reset context).run.run world = (.ok (), begun))
    (populates : (populate source context).run.run begun = (.ok copied, filled)) :
    ((stage source context).run.run world).1 =
      ((classify source).run.run filled).1.map (⟨context, ·⟩) := by
  rw [stage, Action.run_bind, Action.run_blaming, resets]
  simp only [Action.run_bind, Action.run_blaming, populates]
  generalize (classify source).run.run filled = ending
  obtain ⟨result, after⟩ := ending
  cases result <;> rfl

/-- An answer of staging goes with what was copied into the context. -/
structure Agrees (source : Path) (copied : Option Flavour) (answer : Except Failure BuildContext) :
    Prop where
  flavour : ∀ context, answer = .ok context → copied = some context.flavour
  missing : copied = none → answer = .error (.missingDockerfile source)

/-- What was passed over as missing before a flavour was chosen has not come to exist. -/
def StillMissing (files : FileSystem) (source : Path) : Option Flavour → Prop
  | some .template => True
  | some .plain => files.exists? (source.join (Path.ofString Layout.template)) ≠ .ok true
  | none => Chosen files source none

theorem agrees_iff (chosen : Chosen begun.files source copied)
    (retained : Retained begun.files filled.files) :
    Agrees source copied (((classify source).run.run filled).1.map (⟨context, ·⟩)) ↔
      StillMissing filled.files source copied := by
  have second : (classify source).Ends filled _ _ := classify_missing source
  rcases copied with _ | _ | _
  · constructor
    · intro agrees
      have missing := agrees.missing rfl
      rcases second.ending with ⟨flavour, after, run, _⟩ | ⟨fault, after, run, onlyMissing⟩
      · rw [run] at missing
        cases missing
      · rw [run] at missing
        exact onlyMissing (Except.error.inj missing)
    · intro stillMissing
      rw [classify_of_none stillMissing]
      exact ⟨nofun, fun _ => rfl⟩
  · have stillThere : Chosen filled.files source (some .template) := retained.exists?_true chosen
    rw [classify_of_chosen stillThere]
    refine ⟨fun _ => trivial, fun _ => ⟨?_, nofun⟩⟩
    rintro _ ⟨⟩
    rfl
  · constructor
    · intro agrees appeared
      have prefers : Chosen filled.files source (some .template) := appeared
      rw [classify_of_chosen prefers] at agrees
      cases agrees.flavour _ rfl
    · intro stillMissing
      refine ⟨?_, nofun⟩
      intro staged answer
      rcases second.ending with ⟨flavour, after, run, chosenThen⟩ | ⟨fault, after, run, _⟩
      · rw [run] at answer
        obtain rfl := Except.ok.inj answer
        cases flavour with
        | template => exact absurd chosenThen stillMissing
        | plain => rfl
      · rw [run] at answer
        cases answer

/-- Staging agrees with itself exactly if what was missing before the copying is missing after it,
which is sure for a source whose two names keep out of the context: then the context holds what was
copied at the name of the flavour, and nothing at the other name. -/
theorem stage_agrees_iff (resets : (reset context).run.run world = (.ok (), begun))
    (populates : (populate source context).run.run begun = (.ok copied, filled)) :
    (Chosen begun.files source copied ∧ ∃ middle,
      (copyDockerfile source context copied).run.run begun = (.ok (), middle) ∧
        (copySourceTree source context).run.run middle = (.ok (), filled)) ∧
    (Agrees source copied ((stage source context).run.run world).1 ↔
      StillMissing filled.files source copied) ∧
    ∀ directory name, Site world.files source directory name → context = source.join name.toPath →
      (∀ flavour : Flavour,
        world.files.Avoids (directory ++ [name]) (source.join flavour.name.toPath)) →
      StillMissing filled.files source copied ∧ ∀ flavour : Flavour,
        world.files.Apart (directory ++ [name]) (source.join flavour.name.toPath) → ∀ names,
          filled.files.get? (directory ++ name :: flavour.name :: names) =
            if copied = some flavour then
              world.files.tree (source.join flavour.name.toPath) names
            else none := by
  obtain ⟨chosen, retained, copies⟩ := (populate_steps source context).of_ok populates
  refine ⟨⟨chosen, copies⟩, ?_, ?_⟩
  · rw [stage_answer resets populates]
    exact agrees_iff chosen retained
  · rintro directory name site rfl avoids
    obtain ⟨checked, cleared⟩ := (reset_ends site).of_ok resets
    have confined := site.confined checked cleared.agreeOff cleared.at_root cleared.plain
    have populated := (populate_ends confined).of_ok populates
    have sameAnswer := fun flavour => Populated.exists?_eq cleared populated (avoids flavour)
    constructor
    · rcases copied with _ | _ | _
      · exact ⟨(sameAnswer .template).trans chosen.1, (sameAnswer .plain).trans chosen.2⟩
      · trivial
      · intro appeared
        cases ((sameAnswer .template).trans chosen.1).symm.trans appeared
    · intro flavour apart names
      have place : directory ++ name :: flavour.name :: names =
          directory ++ [name] ++ flavour.name :: names := by simp
      rw [place]
      exact Populated.get?_flavour cleared populated apart names

/-! ## A Dockerfile that appears -/

def linkedName : Name := Layout.nameOf "linked"

/-- The Dockerfile of the source is a link to what the source tree has in the context. -/
def linkedSource : FileSystem where
  entries := [
    ([linkedName], .directory),
    ([linkedName, Layout.dockerfileName], .link (Path.ofString "_docker-build/src/Dockerfile")),
    ([linkedName, Layout.sourceTreeName], .directory),
    ([linkedName, Layout.sourceTreeName, Layout.dockerfileName], .file [1] false)]
  distinct := by decide
  rooted := by
    simp only [FileSystem.Rooted, FileSystem.find]
    decide

/-- No Dockerfile is copied, and yet staging succeeds. -/
theorem stage_agrees_iff_link :
    ∃ begun filled,
      (reset (Path.ofString "/linked/_docker-build")).run.run { files := linkedSource } =
        (.ok (), begun) ∧
      (populate (Path.ofString "/linked") (Path.ofString "/linked/_docker-build")).run.run begun =
        (.ok none, filled) ∧
      ¬ Agrees (Path.ofString "/linked") none
        ((stage (Path.ofString "/linked") (Path.ofString "/linked/_docker-build")).run.run
          { files := linkedSource }).1 := by
  obtain ⟨begun, resets, filled, populates, appeared⟩ : ∃ begun,
      (reset (Path.ofString "/linked/_docker-build")).run.run { files := linkedSource } =
        (.ok (), begun) ∧ ∃ filled,
      (populate (Path.ofString "/linked") (Path.ofString "/linked/_docker-build")).run.run begun =
        (.ok none, filled) ∧
      filled.files.exists? (Path.ofString "/linked/Dockerfile") = .ok true :=
    ⟨_, Action.run_eq_of_fst _ (by decide +kernel), _,
      Action.run_eq_of_fst _ (by decide +kernel), by decide +kernel⟩
  obtain ⟨-, agrees, -⟩ := stage_agrees_iff resets populates
  refine ⟨begun, filled, resets, populates, agrees.not.2 fun stillMissing => ?_⟩
  cases stillMissing.2.symm.trans appeared

end Staging

end ImageStaging
