import ImageStaging.Proofs.FileSystem.Tree
import ImageStaging.Proofs.Files
import ImageStaging.TreeCopy

/-!
# What copying a tree does

A copy to a place in a confined directory works at that place only. If it succeeds and the source
keeps out of the directory, the tree of the source, as it was before the work began, is laid over
what stood at the place: whatever order the walk takes, it comes to every entry, since an entry
that could be read is found by its name in a directory that the walk lists. If it fails, what it did
until then is a part of that.
-/

namespace ImageStaging.TreeCopy

open FileSystem (Confined Overlaid PartLaid Paved Planted Spread Steady Worked)
open ImageStaging.Action (Ends)

variable {start : FileSystem} {base target : Path} {root : Location} {names : List Name}
  {world : World}

/-- The first step of copying a file. -/
def makeParent (target : Path) : Action StagingFault Unit :=
  match target.parent? with
  | some parent => (Files.makeDirectories parent).blaming (.createDirectory parent)
  | none => pure ()

theorem copyFile_eq (source target : Path) :
    copyFile source target = (do
      makeParent target
      (Files.copy source target).blaming (.copy source target)
      Action.note ⟨.copying, .debug, "copied file",
        [("from", source.display), ("to", target.display)]⟩) := by
  unfold copyFile makeParent
  cases target.parent? <;> rfl

theorem makeParent_ends (confined : Confined start base root world.files)
    (descends : Path.Descends base names target) (proper : names ≠ []) :
    (makeParent target).Ends world
      (fun _ after => ∃ above rest, names = above ++ rest ∧
        Planted (root ++ above) .directory world.files after.files)
      (fun _ after => Paved (root ++ names) world.files after.files) := by
  obtain ⟨front, last, rfl⟩ : ∃ front last, names = front ++ [last] :=
    ⟨_, _, (List.dropLast_append_getLast proper).symm⟩
  unfold makeParent
  cases found : target.parent? with
  | none =>
    refine ⟨[], _, rfl, ?_⟩
    rw [List.append_nil]
    exact .of_standing confined.isDirectory
  | some parent =>
    simp only [Action.ends_blaming]
    refine (Files.makeDirectories_ends confined (descends.parent found)).mono ?_ ?_
    · intro _ after planted
      exact ⟨_, _, rfl, planted⟩
    · intro _ after paved
      rw [← List.append_assoc]
      exact paved.further [last]

/-- A file is copied into its directory, which is made first. -/
theorem copyFile_ends (source : Path) (confined : Confined start base root world.files)
    (descends : Path.Descends base names target) (proper : names ≠ []) :
    (copyFile source target).Ends world
      (fun _ after => ∃ content executable,
        Planted (root ++ names) (.file content executable) world.files after.files ∧
          (Steady start base root world.files source →
            start.examine source = .ok (.file content executable)))
      (fun _ after => Paved (root ++ names) world.files after.files) := by
  rw [copyFile_eq, Action.ends_bind]
  refine (makeParent_ends confined descends proper).mono ?_ fun _ _ paved => paved
  rintro _ middle ⟨above, rest, rfl, made⟩
  have worked := confined.worked_of_paved made.paved
  have confinedThen := worked.confined
  simp only [Action.ends_bind, Action.ends_blaming, Action.ends_note]
  refine (Files.copy_ends source confinedThen descends).mono ?_ ?_
  · rintro _ after ⟨_, content, executable, location, planted, found, faithful⟩
    refine ⟨content, executable, ?_, fun steady => ?_⟩
    · rw [← List.append_assoc] at planted ⊢
      exact made.trans planted
    · have steady := steady.later worked
      rw [steady.locate confinedThen] at found
      have outside := steady.outside confinedThen found
      have stands := faithful outside
      rw [confinedThen.agree.get? location outside] at stands
      exact FileSystem.examine_of_locate found stands
  · rintro _ _ rfl
    rw [← List.append_assoc]
    exact made.paved.further rest

theorem openDirectory_eq_ok_iff {files : FileSystem} {path : Path} {location : Location}
    {listing : List Name} : openDirectory files path = .ok (location, listing) ↔
      files.locate .target path = .ok location ∧ files.list path = .ok listing := by
  unfold openDirectory
  cases files.locate .target path <;> cases files.list path <;> simp [bind, Except.bind, pure,
    Except.pure]

theorem ends_openDirectory {path : Path}
    {done : Except FileFault (Location × List Name) → World → Prop}
    {failed : StagingFault → World → Prop} :
    (Action.attempt (Action.look (openDirectory · path))).Ends world done failed ↔
      (∀ location listing, world.files.locate .target path = .ok location →
        world.files.list path = .ok listing → done (.ok (location, listing)) world) ∧
      ∀ fault, openDirectory world.files path = .error fault → done (.error fault) world := by
  simp only [Action.ends_attempt, Action.ends_look, Prod.forall, openDirectory_eq_ok_iff, and_imp]

theorem follow_ends (ancestors : List Ancestor) (path : Path) (entry : Entry) :
    (follow ancestors path entry).Ends world (fun _ after => after = world)
      (fun _ after => after = world) := by
  unfold follow
  split
  · simp only [Action.ends_bind, Action.ends_blaming, Action.ends_look, Action.ends_get]
    refine ⟨?_, fun _ _ => trivial⟩
    intro location found
    split
    · split <;> rfl
    · rfl
    · rfl
  · rfl

/-- The relative path of the walk goes down by the names that the walk went down by. -/
theorem relative_join {relative : Path} {below : List Name}
    (isRelative : relative.isAbsolute = false) (moves : relative.moves = below.map .enter)
    (name : Name) :
    (relative.join name.toPath).isAbsolute = false ∧
      (relative.join name.toPath).moves = (below ++ [name]).map .enter := by
  refine ⟨(Path.isAbsolute_join (by simp)).trans isRelative, ?_⟩
  rw [Path.moves_join (by simp), moves, Name.moves_toPath, List.map_append]
  rfl

/-- Every path of the tree leads where it led, however the work goes on. -/
def SteadyTree (start : FileSystem) (base : Path) (root : Location) (files : FileSystem)
    (source : Path) : Prop :=
  ∀ names, Steady start base root files (source.below names)

theorem SteadyTree.of_apart {source : Path} {files : FileSystem}
    (apart : start.Apart root source) : SteadyTree start base root files source :=
  fun names => (apart names).steady

theorem SteadyTree.later {source : Path} {files other : FileSystem}
    (steady : SteadyTree start base root files source)
    (worked : Worked start base root names files other) :
    SteadyTree start base root other source := fun rest => (steady rest).later worked

/-- A file is all that there is of the tree at its path. -/
theorem copyFile_lays {source : Path} (sourceNonempty : source.bytes ≠ [])
    (confined : Confined start base root world.files)
    (descends : Path.Descends base names target) (proper : names ≠ []) :
    (copyFile source target).Ends world
      (fun _ after => Worked start base root names world.files after.files ∧
        (Steady start base root world.files source →
          Overlaid (start.tree source) (root ++ names) world.files after.files))
      (fun _ after => Worked start base root names world.files after.files ∧
        PartLaid (start.tree source) (root ++ names) world.files after.files) := by
  refine (copyFile_ends source confined descends proper).mono ?_
    fun _ _ paved => ⟨confined.worked_of_paved paved, .of_paved paved⟩
  rintro _ after ⟨content, executable, planted, faithful⟩
  refine ⟨confined.worked_of_planted planted (by simp [proper]) (.inr rfl), fun steady => ?_⟩
  have isFile := faithful steady
  exact .of_planted planted (FileSystem.tree_eq_some_iff.2 isFile)
    fun name rest => FileSystem.tree_of_not_directory sourceNonempty isFile (by simp) rest

/-- The step of a walk from one entry of a directory to the next. -/
def copyEntry (source target : Path) (depth : Nat) (ancestors : List Ancestor)
    (path relative : Path) (location : Location) (copied : Nat) (name : Name) :
    Action StagingFault Nat := do
  let entry := ((← get).files.get? (location ++ [name])).getD .directory
  let more ← visit source target depth (⟨path, location⟩ :: ancestors)
    (path.join name.toPath) (relative.join name.toPath) entry
  pure (copied + more)

theorem nodup_sorted_children (files : FileSystem) (directory : Location) :
    ((files.children directory).mergeSort Name.le).Nodup :=
  (List.mergeSort_perm _ _).nodup_iff.2 (FileSystem.children_nodup _ _)

theorem tree_below_cons (files : FileSystem) (source : Path) (below rest : List Name)
    (name : Name) : files.tree (source.below below) (name :: rest) =
      files.tree (source.below (below ++ [name])) rest := by
  rw [Path.below_concat]
  rfl

/-- The entries of a directory that was made are copied one after the other. -/
theorem entries_ends (listing : List Name) {source relative : Path} {below : List Name}
    {location : Location} {ancestors : List Ancestor} {depth : Nat} {files : FileSystem} {made : World}
    (planted : Planted (root ++ (names ++ below)) .directory files made.files)
    (worked : Worked start base root (names ++ below) files made.files)
    (visits : ∀ name middle, Confined start base root middle.files →
      (visit source target depth (⟨source.below below, location⟩ :: ancestors)
          (source.below (below ++ [name])) (relative.join name.toPath)
          ((middle.files.get? (location ++ [name])).getD .directory)).Ends middle
        (fun _ after =>
          Worked start base root (names ++ (below ++ [name])) middle.files after.files ∧
          (SteadyTree start base root middle.files source →
            Overlaid (start.tree (source.below (below ++ [name])))
              (root ++ (names ++ (below ++ [name]))) middle.files after.files))
        (fun _ after =>
          Worked start base root (names ++ (below ++ [name])) middle.files after.files ∧
          (SteadyTree start base root middle.files source →
            PartLaid (start.tree (source.below (below ++ [name])))
              (root ++ (names ++ (below ++ [name]))) middle.files after.files))) :
    (listing.foldlM (copyEntry source target depth ancestors (source.below below) relative
        location) 0).Ends made
      (fun _ after => Worked start base root (names ++ below) files after.files ∧
        (SteadyTree start base root files source →
          Spread (start.tree (source.below below)) (root ++ (names ++ below)) listing made.files
            after.files))
      (fun _ after => Worked start base root (names ++ below) files after.files ∧
        (SteadyTree start base root files source →
          PartLaid (start.tree (source.below below)) (root ++ (names ++ below)) files
            after.files)) := by
  refine Ends.foldlM (fun seen _ after => Worked start base root (names ++ below) files after.files ∧
    (SteadyTree start base root files source →
      Spread (start.tree (source.below below)) (root ++ (names ++ below)) seen made.files
        after.files)) ⟨worked, fun _ => .nil _ _ _⟩ ?_
  rintro seen name _ copied middle ⟨worked, spread⟩
  have part : start.tree (source.below (below ++ [name])) =
      fun rest => start.tree (source.below below) (name :: rest) :=
    funext fun rest => (tree_below_cons start source below rest name).symm
  simp only [copyEntry, Action.ends_bind, Action.ends_get, Action.ends_pure]
  rw [← Path.below_concat]
  refine (visits name middle worked.confined).mono ?_ ?_
  · rintro _ last ⟨further, laid⟩
    rw [← List.append_assoc] at further
    refine ⟨worked.trans further, fun steady => ?_⟩
    have laid := laid (steady.later worked)
    rw [part, ← List.append_assoc names, ← List.append_assoc root] at laid
    exact (spread steady).step planted.at_location laid
  · rintro _ last ⟨further, laid⟩
    rw [← List.append_assoc] at further
    refine ⟨worked.trans further, fun steady => ?_⟩
    have laid := laid (steady.later worked)
    rw [part, ← List.append_assoc names, ← List.append_assoc root] at laid
    exact .of_entries planted (spread steady) laid

theorem visit_ends {source : Path} (sourceNonempty : source.bytes ≠ [])
    (descends : Path.Descends base names target) (depth : Nat)
    (ancestors : List Ancestor) {below : List Name} (proper : names ++ below ≠ []) {relative : Path}
    (isRelative : relative.isAbsolute = false) (moves : relative.moves = below.map .enter)
    (entry : Entry) (confined : Confined start base root world.files) :
    (visit source target depth ancestors (source.below below) relative entry).Ends world
      (fun _ after => Worked start base root (names ++ below) world.files after.files ∧
        (SteadyTree start base root world.files source →
          Overlaid (start.tree (source.below below)) (root ++ (names ++ below)) world.files
            after.files))
      (fun _ after => Worked start base root (names ++ below) world.files after.files ∧
        (SteadyTree start base root world.files source →
          PartLaid (start.tree (source.below below)) (root ++ (names ++ below)) world.files
            after.files)) := by
  induction depth generalizing ancestors below relative entry world with
  | zero => exact ⟨confined.worked _, fun _ => .refl _ _ _⟩
  | succ depth ih =>
    have descendsBelow := descends.join isRelative moves
    have nonempty := Path.bytes_below_ne_nil sourceNonempty below
    have noWork : Worked start base root (names ++ below) world.files world.files ∧
        (SteadyTree start base root world.files source → PartLaid (start.tree (source.below below))
          (root ++ (names ++ below)) world.files world.files) :=
      ⟨confined.worked _, fun _ => .refl _ _ _⟩
    unfold visit
    simp only [Action.ends_bind, Action.ends_blaming]
    refine (follow_ends ancestors _ entry).mono ?_ ?_
    · rintro found world rfl
      split
      · simp only [Action.ends_bind, ends_openDirectory, Action.ends_blaming]
        have make := (Files.makeDirectories_ends confined descendsBelow).mono
          (fun _ _ planted => planted) fun _ after paved =>
            (⟨confined.worked_of_paved paved, fun _ => .of_paved paved⟩ :
              Worked start base root (names ++ below) world.files after.files ∧
                (SteadyTree start base root world.files source →
                  PartLaid (start.tree (source.below below)) (root ++ (names ++ below)) world.files
                    after.files))
        refine ⟨fun location listing _ listed => ?_, fun _ _ => ?_⟩
        · refine make.mono ?_ fun _ _ part => part
          intro _ made planted
          have visits := fun name (middle : World)
              (confined : Confined start base root middle.files) =>
            ih (⟨source.below below, location⟩ :: ancestors) (by simp)
              (relative_join isRelative moves name).1 (relative_join isRelative moves name).2
              ((middle.files.get? (location ++ [name])).getD .directory) confined
          refine (entries_ends _ planted (confined.worked_of_paved planted.paved) visits).mono ?_
            fun _ _ ends => ends
          rintro copied after ⟨worked, spread⟩
          refine ⟨worked, fun steady => (spread steady).overlaid planted ?_ ?_⟩
          · exact (steady below).tree_nil_of_list confined listed
          · intro name rest entry stands
            exact List.mem_mergeSort.2
              ((steady below).mem_list_of_tree confined nonempty listed stands)
        · refine make.mono ?_ fun _ _ part => part
          -- The directory is made all the same, which is a part of the tree.
          exact fun _ _ planted =>
            ⟨confined.worked_of_paved planted.paved, fun _ => .of_paved planted.paved⟩
      · simp only [Action.ends_bind, Action.ends_pure]
        exact (copyFile_lays nonempty confined descendsBelow proper).mono
          (fun _ _ ends => ⟨ends.1, fun steady => ends.2 (steady below)⟩)
          fun _ _ ends => ⟨ends.1, fun _ => ends.2⟩
    · rintro _ _ rfl
      exact noWork

/-- A copy to a place in a confined directory. -/
theorem copy_ends {source : Path} (sourceNonempty : source.bytes ≠ [])
    (descends : Path.Descends base names target) (proper : names ≠ [])
    (confined : Confined start base root world.files) :
    (copy source target).Ends world
      (fun _ after => Worked start base root names world.files after.files ∧
        (start.Apart root source →
          Overlaid (start.tree source) (root ++ names) world.files after.files))
      (fun _ after => Worked start base root names world.files after.files ∧
        (start.Apart root source →
          PartLaid (start.tree source) (root ++ names) world.files after.files)) := by
  have noWork : Worked start base root names world.files world.files ∧
      (start.Apart root source → PartLaid (start.tree source) (root ++ names) world.files
        world.files) := ⟨confined.worked names, fun _ => .refl _ _ _⟩
  unfold copy
  simp only [Action.ends_bind, Action.ends_blaming, Action.ends_look]
  refine ⟨?_, fun _ _ => noWork⟩
  intro entry _
  split
  · simp only [Action.ends_bind, Action.ends_pure]
    exact (copyFile_lays sourceNonempty confined descends proper).mono
      (fun _ _ ends => ⟨ends.1, fun apart => ends.2 apart.here.steady⟩)
      fun _ _ ends => ⟨ends.1, fun _ => ends.2⟩
  · simp only [Action.ends_bind, Action.ends_blaming, Action.ends_look]
    refine ⟨?_, fun _ _ => noWork⟩
    intro entry _
    have noMoves : (⟨[]⟩ : Path).moves = ([] : List Name).map .enter := rfl
    have visited := visit_ends sourceNonempty descends (FileSystem.pathLimit + 1) []
      (by simpa using proper) rfl noMoves entry confined
    rw [List.append_nil, Path.below_nil] at visited
    exact visited.mono (fun _ _ ends => ⟨ends.1, fun apart => ends.2 (.of_apart apart)⟩)
      fun _ _ ends => ⟨ends.1, fun apart => ends.2 (.of_apart apart)⟩

end ImageStaging.TreeCopy
