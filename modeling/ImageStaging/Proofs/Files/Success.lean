import ImageStaging.Proofs.Directories
import ImageStaging.Proofs.FileSystem.Vacancy

/-!
# When working with files succeeds

Where a place in a confined directory is free, its directories can be made and a file can be copied
there by any path that can be looked up. Only a path that ends in a `.` makes no directory: the
directory would have to be there already.
-/

namespace ImageStaging.Files

open FileSystem (Confined Free Planted checkPath makeDirectory)
open ImageStaging.Action (edit)

variable {start : FileSystem} {base path : Path} {root : Location} {names front : List Name}
  {last : Name} {world : World}

/-! ## Making directories -/

theorem accept_succeeds (isDirectory : world.files.isDirectory path = true) (fault : FileFault) :
    (makeDirectoriesWithin.accept path fault).Ends world (fun _ after => after = world)
      (fun _ _ => False) := by
  simp only [makeDirectoriesWithin.accept, Action.ends_bind, Action.ends_get, isDirectory]
  rfl

section Made

variable (confined : Confined start base root world.files)
  (descends : Path.Descends base (front ++ [last]) path) (notDot : ¬ path.EndsInDot)
  (checked : checkPath path = .ok ())
include confined descends notDot checked

/-- In a directory that is there, a directory is made or has been there, too. -/
theorem edit_makeDirectory_succeeds
    (isDirectory : world.files.get? (root ++ front) = some .directory)
    (free : Free world.files (root ++ (front ++ [last]))) :
    (edit (makeDirectory path)).Ends world (fun _ _ => True)
      (fun fault after => after = world ∧ fault = .alreadyExists ∧
        world.files.isDirectory path = true) := by
  refine Action.ends_edit.2 ⟨fun _ _ => trivial, fun fault failed => ⟨rfl, ?_⟩⟩
  rw [confined.makeDirectory_of_front descends notDot checked isDirectory] at failed
  split at failed
  · next stands =>
    refine ⟨(Except.error.inj failed).symm, ?_⟩
    rcases free _ List.prefix_rfl with nothing | isDirectory
    · rw [nothing] at stands
      cases stands
    · exact confined.isDirectory_of_standing descends checked isDirectory
  · cases failed

theorem settle_succeeds (isDirectory : world.files.get? (root ++ front) = some .directory)
    (free : Free world.files (root ++ (front ++ [last]))) :
    (makeDirectoriesWithin.settle path).Ends world (fun _ _ => True) (fun _ _ => False) := by
  simp only [makeDirectoriesWithin.settle, Action.ends_bind, Action.ends_attempt, Action.ends_pure]
  refine (edit_makeDirectory_succeeds confined descends notDot checked isDirectory free).mono
    (fun _ _ made => made) ?_
  rintro fault _ ⟨rfl, -, isDirectory⟩
  exact (accept_succeeds isDirectory fault).mono (fun _ _ _ => trivial) fun _ _ never => never

end Made

theorem makeDirectoriesWithin_succeeds (depth : Nat)
    (confined : Confined start base root world.files) (descends : Path.Descends base names path)
    (proper : names ≠ []) (notDot : ¬ path.EndsInDot) (checked : checkPath path = .ok ())
    (free : Free world.files (root ++ names)) (enough : path.bytes.length < depth) :
    (makeDirectoriesWithin depth path).Ends world (fun _ _ => True) (fun _ _ => False) := by
  induction depth generalizing names path world with
  | zero => exact absurd enough (Nat.not_lt_zero _)
  | succ depth ih =>
    obtain ⟨front, last, rfl⟩ : ∃ front last, names = front ++ [last] :=
      ⟨_, _, (List.dropLast_append_getLast proper).symm⟩
    have moves : path.moves ≠ [] := List.ne_nil_of_mem descends.enters
    rw [makeDirectoriesWithin]
    split
    · trivial
    · simp only [Action.ends_bind, Action.ends_attempt]
      rcases free (root ++ front) ((List.prefix_append_right_inj root).2 (List.prefix_append _ _))
        with missing | isDirectory
      · -- The level above has to be made first, and then the last name can be.
        have freeAbove : Free world.files (root ++ front) :=
          free.above ((List.prefix_append_right_inj root).2 (List.prefix_append _ _))
        refine Action.ends_edit.2 ⟨fun _ _ => trivial, fun fault failed => ?_⟩
        rw [confined.makeDirectory_of_missing descends notDot checked freeAbove missing] at failed
        obtain rfl := Except.error.inj failed
        obtain ⟨parent, found⟩ := Option.isSome_iff_exists.1 (Path.parent?_isSome moves)
        have properAbove : front ≠ [] := by
          rintro rfl
          rw [List.append_nil, confined.isDirectory] at missing
          cases missing
        obtain ⟨descendsAbove, notDotAbove, checkedAbove⟩ :=
          FileSystem.parent_of_descends descends properAbove checked found
        have shorter := Path.length_parent?_lt found moves
        simp only [found, Action.ends_bind]
        refine ((ih confined descendsAbove properAbove notDotAbove checkedAbove freeAbove
          (by omega)).and (makeDirectoriesWithin_ends depth confined descendsAbove)).mono ?_
            fun _ _ never => never.1
        rintro _ middle ⟨-, planted⟩
        exact settle_succeeds (confined.paved planted.paved) descends notDot checked
          planted.at_location (free.of_planted planted)
      · refine (edit_makeDirectory_succeeds confined descends notDot checked isDirectory free).mono
          (fun _ _ made => made) ?_
        rintro _ _ ⟨rfl, rfl, isDirectory⟩
        exact (accept_succeeds isDirectory .alreadyExists).mono (fun _ _ _ => trivial)
          fun _ _ never => never

/-- Unless the path ends in a `.`, the directories of a free place are made if, and only if, the path
can be looked up. -/
theorem makeDirectories_succeeds (confined : Confined start base root world.files)
    (descends : Path.Descends base names path) (proper : names ≠ []) (notDot : ¬ path.EndsInDot)
    (free : Free world.files (root ++ names)) :
    (makeDirectories path).Ends world
      (fun _ after => checkPath path = .ok () ∧
        Planted (root ++ names) .directory world.files after.files)
      (fun _ _ => checkPath path ≠ .ok ()) := by
  have ends := (makeDirectories_checked path world).and (makeDirectories_ends confined descends)
  by_cases checked : checkPath path = .ok ()
  · have succeeds := makeDirectoriesWithin_succeeds (path.bytes.length + 2) confined descends proper
      notDot checked free (by omega)
    exact (succeeds.and ends).mono (fun _ _ made => ⟨checked, made.2.2⟩)
      fun _ _ never => never.1.elim
  · exact ends.mono (fun _ _ made => absurd (made.1 (descends.bytes_ne_nil proper)) checked)
      fun _ _ _ => checked

/-- No directory is made for a path that ends in a `.`. -/
theorem edit_makeDirectory_of_dot (ends : path.EndsInDot) (world : World) :
    (edit (makeDirectory path)).Ends world (fun _ _ => False) (fun _ after => after = world) := by
  refine Action.ends_edit.2 ⟨fun step made => ?_, fun _ _ => rfl⟩
  obtain ⟨_, _, comes, -⟩ := FileSystem.lastStep_of_makeDirectory made
  obtain ⟨-, steps, -⟩ := FileSystem.travel_of_lastStep comes
  have isLast := Path.endsInDot_iff.1 ends
  rw [steps, List.getLast?_concat] at isLast
  cases isLast

theorem accept_fails {fault : FileFault} (notDirectory : world.files.isDirectory path ≠ true) :
    (makeDirectoriesWithin.accept path fault).Ends world (fun _ _ => False) (fun _ _ => True) :=
  (accept_isDirectory path fault world).mono (fun _ _ accepted => notDirectory accepted.2)
    fun _ _ _ => trivial

/-- A path that ends in a `.` cannot be used for a directory that is not there. -/
theorem makeDirectories_of_dot (confined : Confined start base root world.files)
    (descends : Path.Descends base names path) (proper : names ≠ []) (ends : path.EndsInDot)
    (nothing : world.files.get? (root ++ names) = none) :
    (makeDirectories path).Ends world (fun _ _ => False) (fun _ _ => True) := by
  obtain ⟨front, last, rfl⟩ : ∃ front last, names = front ++ [last] :=
    ⟨_, _, (List.dropLast_append_getLast proper).symm⟩
  have missing {middle : World} (confined : Confined start base root middle.files)
      (nothing : middle.files.get? (root ++ (front ++ [last])) = none) :
      middle.files.isDirectory path ≠ true := by
    intro isDirectory
    cases nothing.symm.trans (confined.isDirectory_at descends isDirectory)
  rw [makeDirectories, makeDirectoriesWithin]
  split
  · next empty =>
    rw [Path.EndsInDot, Path.pieces, empty] at ends
    cases ends
  · simp only [Action.ends_bind, Action.ends_attempt]
    refine (edit_makeDirectory_of_dot ends world).mono (fun _ _ never => never.elim) ?_
    rintro fault world rfl
    split
    · next impossible => cases impossible
    · split
      · trivial
      · next parent found =>
        rw [Action.ends_bind]
        refine (makeDirectoriesWithin_ends _ confined (descends.parent found)).mono ?_
          fun _ _ _ => trivial
        intro _ middle planted
        simp only [makeDirectoriesWithin.settle, Action.ends_bind, Action.ends_attempt,
          Action.ends_pure]
        refine (edit_makeDirectory_of_dot ends middle).mono (fun _ _ never => never.elim) ?_
        rintro fault middle rfl
        refine accept_fails (missing (confined.paved planted.paved) ?_)
        rw [planted.elsewhere, nothing]
        rw [← List.append_assoc]
        exact fun above => absurd (FileSystem.eq_nil_of_above above) (List.cons_ne_nil last [])
    · exact accept_fails (missing confined nothing)

/-! ## Copying a file -/

/-- A file that can be written somewhere else is copied. -/
theorem copy_succeeds {source : Path} {location place : Location} {content : Bytes}
    {executable : Bool} (found : world.files.locate .target source = .ok location)
    (isFile : world.files.get? location = some (.file content executable))
    (writable : world.files.writable path = .ok (place, none))
    (accepts : world.files.Accepts place) (differ : location ≠ place) :
    (copy source path).Ends world (fun _ _ => True) (fun _ _ => False) := by
  rw [copy_eq, Action.ends_bind, Action.ends_look]
  refine ⟨fun location' found' => ?_, fun fault failed => ?_⟩
  · obtain rfl := Except.ok.inj (found.symm.trans found')
    simp only [Action.ends_bind, Action.ends_get, isFile, Action.ends_look, writable]
    constructor
    · rintro _ ⟨⟩
      have emptied := planted_of_accepts accepts [] executable
      have still : (world.files.place place (.file [] executable)).get? location =
          some (.file content executable) := by
        rw [FileSystem.get?_place, if_neg fun same => differ same.2, isFile]
      simp only [reduceCtorEq, if_false, Action.ends_bind, Action.ends_change, transfer,
        Action.ends_get, FileSystem.apply, still]
      exact (fill_ends content emptied.at_location accepts.1).mono (fun _ _ _ => trivial)
        fun _ _ never => never
    · intro fault failed
      cases failed
  · cases found.symm.trans failed

/-- A file can only be copied by a path that can be looked up. -/
theorem copy_checked (source path : Path) (world : World) :
    (copy source path).Ends world (fun _ _ => checkPath path = .ok ()) (fun _ _ => True) := by
  rw [copy_eq, Action.ends_bind, Action.ends_look]
  refine ⟨fun location _ => ?_, fun _ _ => trivial⟩
  simp only [Action.ends_bind, Action.ends_get]
  split
  · simp only [Action.ends_bind, Action.ends_look]
    refine ⟨fun place writable => ?_, fun _ _ => trivial⟩
    have checked : checkPath path = .ok () := by
      rw [FileSystem.writable] at writable
      cases answer : world.files.resolve .creation path with
      | error fault => rw [answer] at writable; cases writable
      | ok found => exact FileSystem.checkPath_of_resolve answer
    exact .of_forall (fun _ _ => checked) fun _ _ => trivial
  · trivial

end ImageStaging.Files
