import ImageStaging.Files
import ImageStaging.Proofs.Action
import ImageStaging.Proofs.FileSystem.Missing

/-!
# What working with files does

Each action on a path that descends from a confined directory either succeeds, and then the place
of the path is as it should be and everything else as it was, or fails and has done no more than
work at that place.
-/

namespace ImageStaging.Files

open FileSystem (makeDirectory Confined Paved Planted)
open ImageStaging.Action (edit look)

variable {start : FileSystem} {base path : Path} {root : Location} {names : List Name}
  {world : World}

section Directories

variable (confined : Confined start base root world.files)
  (descends : Path.Descends base names path)
include confined descends

theorem edit_makeDirectory :
    (edit (makeDirectory path)).Ends world
      (fun _ after => Planted (root ++ names) .directory world.files after.files)
      (fun fault after => after = world ∧ makeDirectory path world.files = .error fault) := by
  refine Action.ends_edit.2 ⟨?_, fun fault failed => ⟨rfl, failed⟩⟩
  intro step made
  obtain ⟨rfl, _, accepts, nothing⟩ := confined.makeDirectory_ok descends made
  exact .place accepts fun _ => nothing

theorem accept_ends (fault : FileFault) :
    (makeDirectoriesWithin.accept path fault).Ends world
      (fun _ after => Planted (root ++ names) .directory world.files after.files)
      (fun _ after => after = world) := by
  simp only [makeDirectoriesWithin.accept, Action.ends_bind, Action.ends_get]
  split
  · next isDirectory => exact .of_standing (confined.isDirectory_at descends isDirectory)
  · exact rfl

theorem settle_ends :
    (makeDirectoriesWithin.settle path).Ends world
      (fun _ after => Planted (root ++ names) .directory world.files after.files)
      (fun _ after => after = world) := by
  simp only [makeDirectoriesWithin.settle, Action.ends_bind, Action.ends_attempt, Action.ends_pure]
  refine (edit_makeDirectory confined descends).mono (fun _ _ planted => planted) ?_
  rintro fault after ⟨rfl, _⟩
  exact accept_ends confined descends fault

end Directories

theorem makeDirectoriesWithin_ends (depth : Nat) (confined : Confined start base root world.files)
    (descends : Path.Descends base names path) :
    (makeDirectoriesWithin depth path).Ends world
      (fun _ after => Planted (root ++ names) .directory world.files after.files)
      (fun _ after => Paved (root ++ names) world.files after.files) := by
  induction depth generalizing names path world with
  | zero => exact .refl _ _
  | succ depth ih =>
    rw [makeDirectoriesWithin]
    split
    · next empty =>
      -- Only a path without moves is empty, and it asks for nothing.
      have noMoves : names = [] := by
        by_contra proper
        exact descends.bytes_ne_nil proper empty
      subst noMoves
      rw [List.append_nil]
      exact .of_standing confined.isDirectory
    · next nonempty =>
      simp only [Action.ends_bind, Action.ends_attempt]
      refine (edit_makeDirectory confined descends).mono (fun _ _ planted => planted) ?_
      rintro fault world ⟨rfl, failed⟩
      have noWork : ∀ (fault : FileFault) after, after = world →
          Paved (root ++ names) world.files after.files := by
        rintro _ _ rfl
        exact .refl _ _
      by_cases missing : fault = .notFound
      · subst missing
        have proper := confined.makeDirectory_notFound descends nonempty failed
        obtain ⟨front, last, rfl⟩ : ∃ front last, names = front ++ [last] :=
          ⟨_, _, (List.dropLast_append_getLast proper).symm⟩
        cases found : path.parent? with
        | none => exact noWork .notFound _ rfl
        | some parent =>
          simp only [Action.ends_bind]
          rw [← List.append_assoc]
          refine (ih confined (descends.parent found)).mono ?_ fun _ _ paved =>
            paved.further [last]
          intro _ middle planted
          refine (settle_ends (confined.paved planted.paved) descends).mono ?_ ?_
          · intro _ _ further
            rw [← List.append_assoc] at further
            exact planted.trans further
          · rintro _ _ rfl
            exact planted.paved.further [last]
      · have accepted := accept_ends confined descends fault
        cases fault with
        | notFound => exact absurd rfl missing
        | _ => exact accepted.mono (fun _ _ planted => planted) noWork

/-- Either the directory stands afterwards or some of the directories above it were made. -/
theorem makeDirectories_ends (confined : Confined start base root world.files)
    (descends : Path.Descends base names path) :
    (makeDirectories path).Ends world
      (fun _ after => Planted (root ++ names) .directory world.files after.files)
      (fun _ after => Paved (root ++ names) world.files after.files) :=
  makeDirectoriesWithin_ends _ confined descends

/-! ## What making directories keeps -/

section Keeping

variable {whole : Path} {property : World → Prop}
  (makes : ∀ world above here name, property world → Path.Leading above whole →
    FileSystem.RunsOut world.files above here name [] →
    property { world with
      files := world.files.place (here ++ [name]) .directory
      journal := world.journal ++ [.place (here ++ [name]) .directory] })
  (holds : property world) (leading : Path.Leading path whole)
include makes holds leading

theorem edit_makeDirectory_keeps :
    (edit (makeDirectory path)).Ends world (fun _ after => property after)
      (fun _ after => after = world) := by
  refine Action.ends_edit.2 ⟨fun step made => ?_, fun _ _ => rfl⟩
  obtain ⟨here, name, rfl, out⟩ := FileSystem.RunsOut.of_makeDirectory made
  exact makes world path here name holds leading out

omit makes leading in
theorem accept_keeps (path : Path) (fault : FileFault) :
    (makeDirectoriesWithin.accept path fault).Ends world (fun _ after => property after)
      (fun _ after => property after) := by
  simp only [makeDirectoriesWithin.accept, Action.ends_bind, Action.ends_get]
  split <;> exact holds

theorem settle_keeps :
    (makeDirectoriesWithin.settle path).Ends world (fun _ after => property after)
      (fun _ after => property after) := by
  simp only [makeDirectoriesWithin.settle, Action.ends_bind, Action.ends_attempt, Action.ends_pure]
  refine (edit_makeDirectory_keeps makes holds leading).mono (fun _ _ kept => kept) ?_
  rintro fault _ rfl
  exact accept_keeps holds path fault

theorem makeDirectoriesWithin_keeps (depth : Nat) :
    (makeDirectoriesWithin depth path).Ends world (fun _ after => property after)
      (fun _ after => property after) := by
  induction depth generalizing path world with
  | zero => exact holds
  | succ depth ih =>
    rw [makeDirectoriesWithin]
    split
    · exact holds
    · simp only [Action.ends_bind, Action.ends_attempt]
      refine (edit_makeDirectory_keeps makes holds leading).mono (fun _ _ kept => kept) ?_
      rintro fault _ rfl
      split
      · exact holds
      · split
        · exact holds
        · next above found =>
          rw [Action.ends_bind]
          refine (ih holds (leading.parent found)).mono ?_ fun _ _ kept => kept
          intro _ middle kept
          exact settle_keeps makes kept leading
      · exact accept_keeps holds path _

omit leading in
/-- What holds when a directory is made where a path runs out goes on to hold when the directories
of the path are made, whether all of them come to be made or not. -/
theorem makeDirectories_keeps :
    (makeDirectories whole).Ends world (fun _ after => property after)
      (fun _ after => property after) :=
  makeDirectoriesWithin_keeps makes holds (.refl whole) _

end Keeping

/-! ## Writing files -/

section Writing

/-- A path allows a file to be written where one can be placed. -/
theorem accepts_of_writable (confined : Confined start base root world.files)
    (descends : Path.Descends base names path) {location : Location} {entry : Option Entry}
    (found : world.files.writable path = .ok (location, entry)) :
    world.files.Accepts (root ++ names) := by
  obtain ⟨_, proper, standing, notDirectory, parent⟩ := confined.writable_at descends found
  obtain ⟨front, last, rfl⟩ : ∃ front last, names = front ++ [last] :=
    ⟨_, _, (List.dropLast_append_getLast proper).symm⟩
  refine ⟨by simp, ?_, standing ▸ notDirectory⟩
  rw [← List.append_assoc, List.dropLast_concat]
  exact parent front last rfl

theorem planted_of_accepts {files : FileSystem} {location : Location}
    (accepts : files.Accepts location) (content : Bytes) (executable : Bool) :
    Planted location (.file content executable) files
      (files.place location (.file content executable)) :=
  .place accepts fun isDirectory => by cases isDirectory

section Filling

variable {location : Location} {executable : Bool}

theorem accepts_of_file {content : Bytes}
    (stands : world.files.get? location = some (.file content executable))
    (proper : location ≠ []) : world.files.Accepts location :=
  ⟨proper, FileSystem.get?_parent_of_isSome proper (by rw [stands]; rfl), by simp [stands]⟩

theorem fill_ends (content : Bytes) (stands : world.files.get? location = some (.file [] executable))
    (proper : location ≠ []) :
    (fill location content).Ends world
      (fun _ after => Planted location (.file content executable) world.files after.files)
      (fun _ _ => False) := by
  rw [fill]
  split
  · next empty =>
    subst empty
    exact .of_standing stands
  · simp only [Action.ends_bind, Action.ends_get, stands]
    exact planted_of_accepts (accepts_of_file stands proper) content executable

/-- A file that is written has all of the content, or what storage took of it before it failed. -/
theorem write_ends (content : Bytes)
    (stands : world.files.get? location = some (.file [] executable)) (proper : location ≠ []) :
    (write location content).Ends world
      (fun _ after => Planted location (.file content executable) world.files after.files)
      (fun _ after => ∃ taken,
        Planted location (.file (content.take taken) executable) world.files after.files) := by
  have planted := planted_of_accepts (accepts_of_file stands proper)
  rw [write]
  split
  · next empty =>
    subst empty
    exact .of_standing stands
  · simp only [Action.ends_bind, Action.ends_get, stands, Action.ends_askStorage]
    split
    · exact planted content executable
    · next failed _ => exact ⟨failed.taken, planted _ executable⟩

theorem sync_ends {content : Bytes}
    (stands : world.files.get? location = some (.file content executable)) :
    (sync location).Ends world (fun _ after => after.files = world.files)
      (fun _ after => after.files = world.files) := by
  simp only [sync, Action.ends_bind, Action.ends_get, stands, Action.ends_askStorage]
  split <;> rfl

end Filling

/-- A file made or emptied at the place of the path, ready to be written. -/
theorem create_ends (confined : Confined start base root world.files)
    (descends : Path.Descends base names path) :
    (create path).Ends world
      (fun location after => location = root ++ names ∧ names ≠ [] ∧ ∃ executable,
        Planted (root ++ names) (.file [] executable) world.files after.files)
      (fun _ after => after = world) := by
  simp only [create, Action.ends_bind, Action.ends_look]
  refine ⟨?_, fun _ _ => trivial⟩
  rintro ⟨location, entry⟩ found
  obtain ⟨rfl, proper, standing, notDirectory, _⟩ := confined.writable_at descends found
  have planted := planted_of_accepts (accepts_of_writable confined descends found)
  cases entry with
  | none => exact ⟨rfl, proper, false, planted [] false⟩
  | some entry =>
    rcases confined.plain names entry standing.symm with rfl | isFile
    · exact absurd rfl notDirectory
    · cases entry with
      | file content executable => exact ⟨rfl, proper, executable, planted [] executable⟩
      | directory => cases isFile
      | link => cases isFile
      | fullDevice => cases isFile

/-- The end of a copy: what the source holds by then is written. -/
def transfer (source target : Location) : Action FileFault Unit := do
  match (← get).files.get? source with
  | some (.file content _) => fill target content
  | _ => pure ()

theorem copy_eq (source target : Path) :
    copy source target = (do
      let sourceLocation ← look (·.locate .target source)
      match (← get).files.get? sourceLocation with
      | some (.file _ executable) =>
        let (location, entry) ← look (·.writable target)
        unless entry = some .fullDevice do
          Action.change (.place location (.file [] executable))
        transfer sourceLocation location
      | _ => throw .notRegular) := rfl

/-- A copy fails before it changes anything. If it does not fail, what the source held is at the
place that the path allows to be written, unless that is the source itself. -/
theorem copy_places (source : Path)
    (usable : ∀ location entry, world.files.writable path = .ok (location, entry) →
      world.files.Accepts location ∧ entry ≠ some .fullDevice) :
    (copy source path).Ends world
      (fun _ after => ∃ location entry content executable sourceLocation,
        world.files.writable path = .ok (location, entry) ∧
          Planted location (.file content executable) world.files after.files ∧
          world.files.locate .target source = .ok sourceLocation ∧
            (sourceLocation ≠ location →
              world.files.get? sourceLocation = some (.file content executable)))
      (fun _ after => after = world) := by
  simp only [copy, Action.ends_bind, Action.ends_look, Action.ends_get]
  refine ⟨?_, fun _ _ => trivial⟩
  intro sourceLocation foundSource
  split
  · next content executable isFile =>
    simp only [Action.ends_bind, Action.ends_look]
    refine ⟨?_, fun _ _ => trivial⟩
    rintro ⟨location, entry⟩ found
    obtain ⟨accepts, noDevice⟩ := usable location entry found
    simp only [noDevice, if_false, Action.ends_bind, Action.ends_change, Action.ends_get]
    have emptied := planted_of_accepts accepts [] executable
    -- What is read is what the source held, unless the copy has just emptied it.
    obtain ⟨read, readBit, stands, faithful⟩ : ∃ read readBit,
        (world.files.place location (.file [] executable)).get? sourceLocation =
          some (.file read readBit) ∧ (sourceLocation ≠ location → read = content) := by
      rw [emptied.get?]
      by_cases itself : sourceLocation = location
      · rw [if_pos itself]
        exact ⟨_, _, rfl, fun differ => absurd itself differ⟩
      · rw [if_neg itself]
        split
        · next above =>
          rcases emptied.above _ above itself with nothing | isDirectory
          · cases nothing.symm.trans isFile
          · cases isDirectory.symm.trans isFile
        · exact ⟨_, _, isFile, fun _ => rfl⟩
    simp only [FileSystem.apply, stands]
    refine (fill_ends read emptied.at_location accepts.1).mono ?_ ?_
    · intro _ _ written
      refine ⟨location, entry, read, executable, sourceLocation, found,
        emptied.overwritten written, foundSource, fun differ => ?_⟩
      rw [isFile, faithful differ]
    · intro _ _ impossible
      exact impossible.elim
  · rfl

/-- If the source lies outside the confined directory, the copy has its content and its executable
bit. -/
theorem copy_ends (source : Path) (confined : Confined start base root world.files)
    (descends : Path.Descends base names path) :
    (copy source path).Ends world
      (fun _ after => names ≠ [] ∧ ∃ content executable location,
        Planted (root ++ names) (.file content executable) world.files after.files ∧
          world.files.locate .target source = .ok location ∧
            (¬ root <+: location → world.files.get? location = some (.file content executable)))
      (fun _ after => after = world) := by
  have usable : ∀ location entry, world.files.writable path = .ok (location, entry) →
      world.files.Accepts location ∧ entry ≠ some .fullDevice := by
    intro location entry found
    obtain ⟨rfl, -, standing, -⟩ := confined.writable_at descends found
    refine ⟨accepts_of_writable confined descends found, ?_⟩
    rintro rfl
    rcases confined.plain names _ standing.symm with impossible | impossible
    · cases impossible
    · cases impossible
  refine (copy_places source usable).mono ?_ fun _ _ same => same
  rintro _ after ⟨location, entry, content, executable, sourceLocation, found, planted, located,
    faithful⟩
  obtain ⟨rfl, proper, -⟩ := confined.writable_at descends found
  refine ⟨proper, content, executable, sourceLocation, planted, located, fun outside => ?_⟩
  refine faithful ?_
  rintro rfl
  exact outside (List.prefix_append _ _)

end Writing

end ImageStaging.Files
