import ImageStaging.Proofs.TreeCopy

/-!
# Where files are written

Every change of the files is entered in the journal, so what was written between two worlds stands
at the end of the second one's journal. Making directories writes no file, and a tree that is copied
is written only where it has a file.
-/

namespace ImageStaging

/-- The change puts a file at a location, or something that was moved and may be one. -/
def Change.Writes (location : Location) : Change → Prop
  | .place here entry => here = location ∧ entry.isFile = true
  | .remove _ => False
  | .move _ target => target = location

instance (location : Location) : DecidablePred (Change.Writes location)
  | .place here entry => inferInstanceAs (Decidable (here = location ∧ entry.isFile = true))
  | .remove _ => inferInstanceAs (Decidable False)
  | .move _ target => inferInstanceAs (Decidable (target = location))

namespace World

/-- Between two worlds a file was written at a location. -/
def Writes (before after : World) (location : Location) : Prop :=
  ∃ step ∈ after.journal.drop before.journal.length, step.Writes location

instance (before after : World) (location : Location) :
    Decidable (before.Writes after location) :=
  inferInstanceAs (Decidable (∃ step ∈ _, Change.Writes location step))

/-- Between two worlds the journal grew, and files were written at such locations only. -/
def WritesOnly (allowed : Location → Prop) (before after : World) : Prop :=
  ∃ steps, after.journal = before.journal ++ steps ∧
    ∀ step ∈ steps, ∀ location, step.Writes location → allowed location

namespace WritesOnly

variable {allowed wider : Location → Prop} {before middle after : World} {location : Location}

theorem of_same (same : after.journal = before.journal) : WritesOnly allowed before after :=
  ⟨[], by rw [same, List.append_nil], fun _ member => (List.not_mem_nil member).elim⟩

theorem refl (allowed : Location → Prop) (world : World) : WritesOnly allowed world world :=
  of_same rfl

theorem trans (first : WritesOnly allowed before middle) (second : WritesOnly allowed middle after) :
    WritesOnly allowed before after := by
  obtain ⟨steps, grown, within⟩ := first
  obtain ⟨more, grown', within'⟩ := second
  refine ⟨steps ++ more, by rw [grown', grown, List.append_assoc], fun step member => ?_⟩
  rcases List.mem_append.1 member with earlier | later
  · exact within step earlier
  · exact within' step later

theorem mono (only : WritesOnly allowed before after)
    (widen : ∀ location, allowed location → wider location) : WritesOnly wider before after := by
  obtain ⟨steps, grown, within⟩ := only
  exact ⟨steps, grown, fun step member location writes =>
    widen location (within step member location writes)⟩

/-- One more change, which is allowed if it is the writing of a file. -/
theorem change (step : Change) (within : ∀ location, step.Writes location → allowed location)
    (files : FileSystem) :
    WritesOnly allowed before { before with files, journal := before.journal ++ [step] } := by
  refine ⟨[step], rfl, fun other member => ?_⟩
  rw [List.mem_singleton.1 member]
  exact within

theorem allows (only : WritesOnly allowed before after) (writes : before.Writes after location) :
    allowed location := by
  obtain ⟨steps, grown, within⟩ := only
  obtain ⟨step, member, writes⟩ := writes
  rw [grown, List.drop_left] at member
  exact within step member location writes

end WritesOnly

end World

open FileSystem (Confined)
open ImageStaging.Action (Ends)

variable {start : FileSystem} {base path target : Path} {root : Location} {names : List Name}
  {world : World} {allowed : Location → Prop}

namespace Files

theorem makeDirectories_writes (allowed : Location → Prop) (path : Path) :
    (makeDirectories path).Ends world (fun _ after => world.WritesOnly allowed after)
      (fun _ after => world.WritesOnly allowed after) := by
  refine makeDirectories_keeps (fun now above here name only _ _ => ?_) (.refl allowed world)
  refine only.trans (.change _ ?_ _)
  rintro _ ⟨_, impossible⟩
  cases impossible

theorem fill_writes (location : Location) (content : Bytes) :
    (fill location content).Ends world (fun _ after => world.WritesOnly (· = location) after)
      (fun _ _ => True) := by
  unfold fill
  split
  · exact .refl _ _
  · simp only [Action.ends_bind, Action.ends_get]
    split
    · refine .change _ ?_ _
      rintro _ ⟨rfl, -⟩
      rfl
    · trivial

theorem transfer_writes (source target : Location) :
    (transfer source target).Ends world (fun _ after => world.WritesOnly (· = target) after)
      (fun _ _ => True) := by
  simp only [transfer, Action.ends_bind, Action.ends_get]
  split
  · exact fill_writes target _
  · exact .refl _ _

/-- A file is copied to the place that the path leads to. -/
theorem copy_writes (source : Path) (confined : Confined start base root world.files)
    (descends : Path.Descends base names path) :
    (copy source path).Ends world (fun _ after => world.WritesOnly (· = root ++ names) after)
      (fun _ _ => True) := by
  simp only [copy_eq, Action.ends_bind, Action.ends_look, Action.ends_get]
  refine ⟨fun sourceLocation _ => ?_, fun _ _ => trivial⟩
  split
  · simp only [Action.ends_bind, Action.ends_look]
    refine ⟨?_, fun _ _ => trivial⟩
    rintro ⟨location, entry⟩ found
    obtain ⟨rfl, _⟩ := confined.writable_at descends found
    split
    · exact transfer_writes sourceLocation _
    · simp only [Action.ends_bind, Action.ends_change]
      refine (transfer_writes sourceLocation _).mono (fun _ _ only => ?_) fun _ _ failed => failed
      refine .trans (.change _ ?_ _) only
      rintro _ ⟨rfl, -⟩
      rfl
  · trivial

end Files

namespace TreeCopy

theorem makeParent_writes (allowed : Location → Prop) (target : Path) :
    (makeParent target).Ends world (fun _ after => world.WritesOnly allowed after)
      (fun _ _ => True) := by
  unfold makeParent
  split
  · rw [Action.ends_blaming]
    exact (Files.makeDirectories_writes allowed _).mono (fun _ _ only => only) fun _ _ _ => trivial
  · exact .refl _ _

theorem copyFile_writes (source : Path) (confined : Confined start base root world.files)
    (descends : Path.Descends base names target) (proper : names ≠ []) :
    (copyFile source target).Ends world
      (fun _ after => world.WritesOnly (· = root ++ names) after) (fun _ _ => True) := by
  rw [copyFile_eq, Action.ends_bind]
  have made := (makeParent_ends confined descends proper).and
    (makeParent_writes (· = root ++ names) target)
  refine made.mono ?_ fun _ _ _ => trivial
  rintro _ middle ⟨⟨above, rest, rfl, planted⟩, only⟩
  simp only [Action.ends_bind, Action.ends_blaming, Action.ends_note]
  refine (Files.copy_writes source (confined.paved planted.paved) descends).mono ?_
    fun _ _ failed => failed
  intro _ after more
  exact only.trans (more.trans (.of_same rfl))

/-- The location is one at which a tree laid over a place has a file. -/
def FileOf (tree : List Name → Option Entry) (place location : Location) : Prop :=
  ∃ rest content executable, location = place ++ rest ∧
    tree rest = some (.file content executable)

/-- What is written for a source that keeps out of the directory that is worked in. -/
theorem copyFile_writes_file (source : Path) (confined : Confined start base root world.files)
    (descends : Path.Descends base names target) (proper : names ≠ [])
    (avoids : start.Avoids root source) :
    (copyFile source target).Ends world
      (fun _ after => Confined start base root after.files ∧ ∃ content executable,
        start.examine source = .ok (.file content executable) ∧
          world.WritesOnly (· = root ++ names) after)
      (fun _ _ => True) := by
  have copied := (copyFile_ends source confined descends proper).and
    (copyFile_writes source confined descends proper)
  refine copied.mono ?_ fun _ _ _ => trivial
  rintro _ after ⟨⟨content, executable, planted, faithful⟩, only⟩
  refine ⟨confined.planted planted (fun empty => absurd empty proper) (.inr rfl), content,
    executable, faithful avoids.steady, only⟩

theorem visit_writes {source : Path} (apart : start.Apart root source)
    (descends : Path.Descends base names target) (proper : names ≠ []) (depth : Nat)
    (ancestors : List Ancestor) {below : List Name} {relative : Path}
    (isRelative : relative.isAbsolute = false) (moves : relative.moves = below.map .enter)
    (entry : Entry) (confined : Confined start base root world.files) :
    (visit source target depth ancestors (source.below below) relative entry).Ends world
      (fun _ after => Confined start base root after.files ∧
        world.WritesOnly (FileOf (start.tree source) (root ++ names)) after)
      (fun _ _ => True) := by
  induction depth generalizing ancestors below relative entry world with
  | zero => trivial
  | succ depth ih =>
    have descendsBelow := descends.join isRelative moves
    unfold visit
    simp only [Action.ends_bind, Action.ends_blaming]
    refine (follow_ends ancestors _ entry).mono ?_ fun _ _ _ => trivial
    rintro found world rfl
    split
    · simp only [Action.ends_bind, ends_openDirectory, Action.ends_blaming]
      refine ⟨fun location listing _ _ => ?_,
        fun _ _ => .of_forall (fun _ _ => trivial) fun _ _ => trivial⟩
      have made := (Files.makeDirectories_ends confined descendsBelow).and
        (Files.makeDirectories_writes (FileOf (start.tree source) (root ++ names)) _)
      refine made.mono ?_ fun _ _ _ => trivial
      rintro _ made ⟨planted, only⟩
      refine Ends.foldlM (fun _ _ after => Confined start base root after.files ∧
        world.WritesOnly (FileOf (start.tree source) (root ++ names)) after)
        ⟨confined.paved planted.paved, only⟩ ?_
      rintro seen name _ copied after ⟨confined, only⟩
      simp only [Action.ends_bind, Action.ends_get, Action.ends_pure]
      obtain ⟨isRelative, moves⟩ := relative_join isRelative moves name
      rw [← Path.below_concat]
      refine (ih _ isRelative moves _ confined).mono ?_ fun _ _ _ => trivial
      rintro _ last ⟨confined, more⟩
      exact ⟨confined, only.trans more⟩
    · simp only [Action.ends_bind, Action.ends_pure]
      refine (copyFile_writes_file _ confined descendsBelow (by simp [proper]) (apart below)).mono
        ?_ fun _ _ _ => trivial
      rintro _ after ⟨confined, content, executable, isFile, only⟩
      refine ⟨confined, only.mono ?_⟩
      rintro _ rfl
      exact ⟨below, _, _, (List.append_assoc _ _ _).symm, FileSystem.tree_eq_some_iff.2 isFile⟩

/-- A copy writes where the source has a file, and nowhere else. -/
theorem copy_writes {source : Path} (apart : start.Apart root source)
    (descends : Path.Descends base names target) (proper : names ≠ [])
    (confined : Confined start base root world.files) :
    (copy source target).Ends world
      (fun _ after => world.WritesOnly (FileOf (start.tree source) (root ++ names)) after)
      (fun _ _ => True) := by
  unfold copy
  simp only [Action.ends_bind, Action.ends_blaming, Action.ends_look]
  refine ⟨fun entry _ => ?_, fun _ _ => trivial⟩
  split
  · simp only [Action.ends_bind, Action.ends_pure]
    refine (copyFile_writes_file source confined descends proper apart.here).mono ?_
      fun _ _ _ => trivial
    rintro _ after ⟨-, content, executable, isFile, only⟩
    refine only.mono ?_
    rintro _ rfl
    exact ⟨[], _, _, (List.append_nil _).symm, FileSystem.tree_eq_some_iff.2 isFile⟩
  · simp only [Action.ends_bind, Action.ends_blaming, Action.ends_look]
    refine ⟨fun entry _ => ?_, fun _ _ => trivial⟩
    have noMoves : (⟨[]⟩ : Path).moves = ([] : List Name).map .enter := rfl
    exact (visit_writes apart descends proper (FileSystem.pathLimit + 1) [] rfl noMoves entry
      confined).mono (fun _ _ ends => ends.2) fun _ _ failed => failed

end TreeCopy

end ImageStaging
