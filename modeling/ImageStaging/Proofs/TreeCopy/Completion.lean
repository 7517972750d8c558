import ImageStaging.Proofs.FileSystem.Following
import ImageStaging.Proofs.Files.Success
import ImageStaging.Proofs.TreeCopy

/-!
# When the copy of a tree is completed

A finite tree without dangling links is copied to a place where nothing is if, and only if, a copy
can deal with each of its entries: there are files and directories only, and all paths keep to the
bounds on lookups. Each step of the walk is told both ways, so that one induction over the walk
gives what a completed copy has dealt with and that nothing else can stop it.
-/

namespace ImageStaging.TreeCopy

open FileSystem (Confined Follows Planted Steady Vacant Worked checkPath pathLimit)
open ImageStaging.Action (Ends)

variable {start files : FileSystem} {base source target : Path} {root top location : Location}
  {names below front listing : List Name} {name last : Name} {world : World}

/-! ## What a copy can deal with -/

/-- An entry of a tree that a copy can deal with: a directory or a file of which both paths, that
in the source and that in the target, can be looked up. -/
structure Copyable (files : FileSystem) (source target : Path) (names : List Name)
    (location : Location) : Prop where
  found : files.locate .target (source.below names) = .ok location
  kind : ∀ entry, files.get? location = some entry → entry = .directory ∨ entry.isFile = true
  fits : checkPath (target.join (Path.below ⟨[]⟩ names)) = .ok ()

/-- What a tree has at some names and below them can be dealt with. -/
def CopyableBelow (files : FileSystem) (source target : Path) (top : Location)
    (below : List Name) : Prop :=
  ∀ rest location, files.Follows top (below ++ rest) location →
    Copyable files source target (below ++ rest) location

namespace CopyableBelow

theorem here (all : CopyableBelow files source target top below)
    (node : files.Follows top below location) : Copyable files source target below location := by
  have here := all [] location
  rw [List.append_nil] at here
  exact here node

theorem child (all : CopyableBelow files source target top below) (name : Name) :
    CopyableBelow files source target top (below ++ [name]) := by
  intro rest location follows
  rw [List.append_assoc] at follows ⊢
  exact all _ location follows

/-- A tree can be dealt with if its top can and everything below each of its names can. -/
theorem of_children (node : files.Follows top below location)
    (here : Copyable files source target below location)
    (children : ∀ name, files.get? location = some .directory →
      (files.get? (location ++ [name])).isSome →
        CopyableBelow files source target top (below ++ [name])) :
    CopyableBelow files source target top below := by
  intro rest location' follows
  cases rest with
  | nil =>
    rw [List.append_nil] at follows ⊢
    obtain rfl := node.unique follows
    exact here
  | cons name rest =>
    obtain ⟨middle, toMiddle, isDirectory, stands⟩ := follows.before
    obtain rfl := node.unique toMiddle
    have further := children name isDirectory stands rest location'
    rw [List.append_assoc] at further
    exact further follows

end CopyableBelow

/-! ## Following links -/

/-- The walk is in directories that lead to where it is. -/
def Climbs (files : FileSystem) (top : Location) (ancestors : List Ancestor) (below : List Name) :
    Prop :=
  ∀ ancestor ∈ ancestors, ∃ above rest, below = above ++ rest ∧ rest ≠ [] ∧
    files.Follows top above ancestor.location

theorem Climbs.nil (files : FileSystem) (top : Location) (below : List Name) :
    Climbs files top [] below :=
  fun _ member => (List.not_mem_nil member).elim

theorem Climbs.step {ancestors : List Ancestor} (climbs : Climbs files top ancestors below)
    (node : files.Follows top below location) (path : Path) (name : Name) :
    Climbs files top (⟨path, location⟩ :: ancestors) (below ++ [name]) := by
  intro ancestor member
  rcases List.mem_cons.1 member with rfl | member
  · exact ⟨below, [name], rfl, List.cons_ne_nil _ _, node⟩
  · obtain ⟨above, rest, rfl, -, follows⟩ := climbs ancestor member
    exact ⟨above, rest ++ [name], List.append_assoc _ _ _, by simp, follows⟩

/-- Only a lookup that fails keeps the walk from what stands at the end of its path. -/
theorem follow_completes {ancestors : List Ancestor} {entry : Entry} (tree : start.FiniteTree top)
    (found : start.locate .target source = .ok top)
    (isDirectory : start.get? top = some .directory) (node : start.Follows top below location)
    (shows : (∀ link, entry ≠ .link link) → start.get? location = some entry)
    (climbs : Climbs start top ancestors below)
    (confined : Confined start base root world.files)
    (steady : Steady start base root world.files (source.below below)) :
    (follow ancestors (source.below below) entry).Ends world
      (fun found after => after = world ∧ start.get? location = some found)
      (fun _ _ => start.locate .target (source.below below) ≠ .ok location) := by
  obtain ⟨stood, stands⟩ := node.stands isDirectory
  unfold follow
  split
  · simp only [Action.ends_bind, Action.ends_blaming, Action.ends_look, Action.ends_get]
    refine ⟨fun location' located => ?_, fun fault failed located => ?_⟩
    · rw [steady.locate confined] at located
      obtain rfl := node.unique (Follows.of_locate found isDirectory located)
      rw [confined.agree.get? location (steady.outside confined located), stands]
      cases stood with
      | directory =>
        dsimp only
        split
        · next ancestor leadsBack =>
          -- The walk would be in a directory of a finite tree that it comes to again.
          obtain ⟨above, rest, rfl, proper, follows⟩ :=
            climbs ancestor (List.mem_of_find?_eq_some leadsBack)
          have same : ancestor.location = location := by
            simpa using List.find?_some leadsBack
          rw [same] at follows
          exact absurd (tree.no_return follows stands node) proper
        · exact ⟨rfl, rfl⟩
      | file => exact ⟨rfl, rfl⟩
      | link => exact ⟨rfl, rfl⟩
      | fullDevice => exact ⟨rfl, rfl⟩
    · rw [steady.locate confined, located] at failed
      cases failed
  · next notLink => exact ⟨rfl, shows notLink⟩

/-! ## Copying a file -/

theorem copyFile_checked (source target : Path) (world : World) :
    (copyFile source target).Ends world (fun _ _ => checkPath target = .ok ())
      (fun _ _ => True) := by
  rw [copyFile_eq, Action.ends_bind]
  refine .of_forall (fun _ middle => ?_) fun _ _ => trivial
  simp only [Action.ends_bind, Action.ends_blaming, Action.ends_note]
  exact (Files.copy_checked source target middle).mono (fun _ _ checked => checked)
    fun _ _ _ => trivial

/-- A file can be copied to a place where nothing is. -/
theorem copyFile_completes {content : Bytes} {executable : Bool}
    (confined : Confined start base root world.files)
    (descends : Path.Descends base (front ++ [last]) target) (proper : front ≠ [])
    (notDot : ¬ target.EndsInDot) (noSlash : target.endsWithSlash = false)
    (checked : checkPath target = .ok ()) (vacant : world.files.Vacant (root ++ (front ++ [last])))
    (steady : Steady start base root world.files source)
    (found : start.locate .target source = .ok location)
    (isFile : start.get? location = some (.file content executable)) :
    (copyFile source target).Ends world (fun _ _ => True) (fun _ _ => False) := by
  obtain ⟨parent, isParent⟩ := Option.isSome_iff_exists.1
    (Path.parent?_isSome (List.ne_nil_of_mem descends.enters))
  obtain ⟨descendsParent, notDotParent, checkedParent⟩ :=
    FileSystem.parent_of_descends descends proper checked isParent
  rw [copyFile_eq, Action.ends_bind]
  simp only [makeParent, isParent, Action.ends_blaming]
  refine (Files.makeDirectories_succeeds confined descendsParent proper notDotParent
    (vacant.free.above ?_)).mono ?_ fun _ _ failed => failed checkedParent
  · exact (List.prefix_append_right_inj root).2 (List.prefix_append _ _)
  rintro _ middle ⟨-, planted⟩
  have worked := confined.worked_of_paved planted.paved
  have confinedThen := worked.confined
  have steadyThen := steady.later worked
  have outside := steady.outside confined found
  have stillNothing : middle.files.get? (root ++ (front ++ [last])) = none := by
    rw [planted.elsewhere, vacant.nothing]
    rw [← List.append_assoc]
    exact fun above => absurd (FileSystem.eq_nil_of_above above) (List.cons_ne_nil last [])
  have located : middle.files.locate .target source = .ok location := by
    rw [steadyThen.locate confinedThen, found]
  have stands : middle.files.get? location = some (.file content executable) := by
    rw [confinedThen.agree.get? location outside, isFile]
  have accepts : middle.files.Accepts (root ++ (front ++ [last])) := by
    refine ⟨by simp, ?_, by simp [stillNothing]⟩
    rw [← List.append_assoc, List.dropLast_concat]
    exact planted.at_location
  have differ : location ≠ root ++ (front ++ [last]) := by
    rintro rfl
    exact outside (List.prefix_append _ _)
  have writable := confinedThen.writable_of_front descends notDot checked noSlash
    planted.at_location stillNothing
  simp only [Action.ends_bind, Action.ends_blaming, Action.ends_note]
  exact (Files.copy_succeeds located stands writable accepts differ).mono (fun _ _ _ => trivial)
    fun _ _ never => never

/-! ## The walk -/

/-- A name in a directory outside stands there as it did, whatever is done inside. -/
theorem get?_entry (confined : Confined start base root files)
    (rooted : start.get? root = some .directory) (outside : ¬ root <+: location) (name : Name) :
    files.get? (location ++ [name]) = start.get? (location ++ [name]) := by
  by_cases within : root <+: location ++ [name]
  · rcases List.prefix_concat_iff.1 within with same | below
    · rw [← same, confined.isDirectory, rooted]
    · exact absurd below outside
  · exact confined.agree.get? _ within

/-- The entries of a new directory are copied one after the other, as long as they can be. -/
theorem entries_complete {made : World} {depth : Nat} {ancestors : List Ancestor} (relative : Path)
    (nodup : listing.Nodup) (planted : Planted (root ++ (names ++ below)) .directory files made.files)
    (worked : Worked start base root (names ++ below) files made.files)
    (vacant : files.Vacant (root ++ (names ++ below)))
    (visits : ∀ name ∈ listing, ∀ middle, Worked start base root (names ++ below) files middle.files →
      Vacant middle.files (root ++ (names ++ (below ++ [name]))) →
      (visit source target depth (⟨source.below below, location⟩ :: ancestors)
          (source.below (below ++ [name])) (relative.join name.toPath)
          ((middle.files.get? (location ++ [name])).getD .directory)).Ends middle
        (fun _ after =>
          Worked start base root (names ++ (below ++ [name])) middle.files after.files ∧
            CopyableBelow start source target top (below ++ [name]))
        (fun _ _ => ¬ CopyableBelow start source target top (below ++ [name]))) :
    (listing.foldlM (copyEntry source target depth ancestors (source.below below) relative
        location) 0).Ends made
      (fun _ _ => ∀ name ∈ listing, CopyableBelow start source target top (below ++ [name]))
      (fun _ _ => ¬ CopyableBelow start source target top below) := by
  have nothingYet (name : Name) : made.files.get? (root ++ (names ++ below) ++ [name]) = none := by
    rw [planted.elsewhere fun above =>
      absurd (FileSystem.eq_nil_of_above above) (List.cons_ne_nil name [])]
    exact FileSystem.get?_below_of_nothing vacant.nothing (List.prefix_append _ _)
  refine (Ends.foldlM_split (fun seen _ after =>
    Worked start base root (names ++ below) files after.files ∧
      after.files.get? (root ++ (names ++ below)) = some .directory ∧
      (∀ name, name ∉ seen → after.files.get? (root ++ (names ++ below) ++ [name]) = none) ∧
      ∀ name ∈ seen, CopyableBelow start source target top (below ++ [name]))
    ⟨worked, planted.at_location, fun name _ => nothingYet name, nofun⟩ ?_).mono
      (fun _ _ invariant => invariant.2.2.2) fun _ _ failed => failed
  rintro seen name rest split copied middle ⟨worked, isDirectory, unseen, done⟩
  have fresh : name ∉ seen := by
    rw [split] at nodup
    exact fun member => List.disjoint_of_nodup_append nodup member List.mem_cons_self
  have place : root ++ (names ++ (below ++ [name])) = root ++ (names ++ below) ++ [name] := by simp
  have vacantNow : Vacant middle.files (root ++ (names ++ (below ++ [name]))) :=
    place ▸ .child isDirectory (unseen name fresh)
  simp only [copyEntry, Action.ends_bind, Action.ends_get, Action.ends_pure]
  rw [← Path.below_concat]
  refine (visits name (by simp [split]) middle worked vacantNow).mono ?_ ?_
  · rintro more after ⟨further, all⟩
    have touched := further.touched
    rw [place] at touched
    rw [← List.append_assoc] at further
    refine ⟨worked.trans further, further.retained.get?_of_not_file isDirectory rfl, ?_, ?_⟩
    · intro name' member
      rw [List.mem_append, not_or, List.mem_singleton] at member
      rw [touched.sibling member.2, unseen name' member.1]
    · intro name' member
      rcases List.mem_append.1 member with earlier | isLast
      · exact done name' earlier
      · rw [List.mem_singleton.1 isLast]
        exact all
  · intro _ _ failed all
    exact failed (all.child name)

theorem relative_below (below : List Name) :
    (Path.below ⟨[]⟩ below).isAbsolute = false ∧
      (Path.below ⟨[]⟩ below).moves = below.map .enter :=
  ⟨by rw [Path.isAbsolute_below]; rfl, by rw [Path.moves_below]; rfl⟩

/-- The walk spells the place of an entry below the target so that it can be made. -/
theorem destination_join (target : Path) (below : List Name) (name : Name) :
    ¬ (target.join (Path.below ⟨[]⟩ (below ++ [name]))).EndsInDot ∧
      (target.join (Path.below ⟨[]⟩ (below ++ [name]))).endsWithSlash = false := by
  have relative := (relative_below (below ++ [name])).1
  have steps : (Path.below ⟨[]⟩ (below ++ [name])).steps = (below ++ [name]).map .enter :=
    Path.steps_below ⟨[]⟩ _
  constructor
  · rw [Path.endsInDot_join relative (by simp [steps]), Path.endsInDot_iff, steps]
    simp
  · rw [Path.below_concat] at relative ⊢
    have nonempty := @Path.bytes_join_ne_nil (Path.below ⟨[]⟩ below) _ name.bytes_toPath_ne_nil
    rw [Path.endsWithSlash_join relative nonempty,
      Path.endsWithSlash_join name.isAbsolute_toPath name.bytes_toPath_ne_nil,
      Name.endsWithSlash_toPath]

theorem descends_destination (descends : Path.Descends base names target) (below : List Name) :
    Path.Descends base (names ++ below) (target.join (Path.below ⟨[]⟩ below)) :=
  descends.join (relative_below below).1 (relative_below below).2

section Walk

variable (found : start.locate .target source = .ok top)
  (isTop : start.get? top = some .directory) (descends : Path.Descends base names target)
  (proper : names ≠ []) (confined : Confined start base root world.files)
  (vacant : world.files.Vacant (root ++ (names ++ below)))
include found isTop descends proper confined vacant

/-- What is no directory can be dealt with if, and only if, it is copied. -/
theorem visit_file_completes {stood : Entry}
    (steady : Steady start base root world.files (source.below below))
    (node : start.Follows top below location) (stands : start.get? location = some stood)
    (notDirectory : stood ≠ .directory) :
    (copyFile (source.below below) (target.join (Path.below ⟨[]⟩ below))).Ends world
      (fun _ _ => CopyableBelow start source target top below)
      (fun _ _ => ¬ CopyableBelow start source target top below) := by
  have descendsBelow := descends_destination descends below
  have completes : (copyFile (source.below below) (target.join (Path.below ⟨[]⟩ below))).Ends world
      (fun _ _ => True) (fun _ _ => ¬ CopyableBelow start source target top below) := by
    by_cases all : CopyableBelow start source target top below
    · obtain ⟨located, kind, fits⟩ := all.here node
      obtain ⟨content, executable, rfl⟩ := FileSystem.exists_of_isFile
        ((kind stood stands).resolve_left notDirectory)
      rcases List.eq_nil_or_concat' below with rfl | ⟨front, last, rfl⟩
      · obtain rfl := node.unique (.nil start top)
        exact absurd (Option.some.inj (stands.symm.trans isTop)) notDirectory
      · obtain ⟨notDot, noSlash⟩ := destination_join target front last
        rw [← List.append_assoc names] at descendsBelow vacant
        exact (copyFile_completes confined descendsBelow (by simp [proper]) notDot noSlash fits
          vacant steady located stands).mono (fun _ _ done => done) fun _ _ never => never.elim
    · exact .of_forall (fun _ _ => trivial) fun _ _ => all
  refine ((completes.and (copyFile_checked _ _ world)).and (copyFile_ends _ confined descendsBelow
    (by simp [proper]))).mono ?_ fun _ _ failed => failed.1.1
  rintro _ after ⟨⟨-, fits⟩, content, executable, -, faithful⟩
  obtain ⟨location', located, -⟩ := FileSystem.leads_of_examine (faithful steady)
  obtain rfl := node.unique (Follows.of_locate found isTop located)
  obtain rfl : .file content executable = stood := by
    have examined := FileSystem.examine_of_locate located stands
    exact Except.ok.inj ((faithful steady).symm.trans examined)
  refine .of_children node ⟨located, ?_, fits⟩ ?_
  · intro entry stands'
    exact .inr (by rw [← Option.some.inj (stands.symm.trans stands')]; rfl)
  · intro name isDirectory
    cases stands.symm.trans isDirectory

variable (tree : start.FiniteTree top) (rooted : start.get? root = some .directory)
  (steady : SteadyTree start base root world.files source) (node : start.Follows top below location)
include tree rooted steady node

/-- From a place where nothing is, the walk goes through all that can be dealt with, and it fails if
there is anything else. -/
theorem visit_completes (depth : Nat) {ancestors : List Ancestor} {entry : Entry}
    (enough : pathLimit + 1 < depth + (source.below below).bytes.length)
    (notDot : ¬ (target.join (Path.below ⟨[]⟩ below)).EndsInDot)
    (shows : (∀ link, entry ≠ .link link) → start.get? location = some entry)
    (climbs : Climbs start top ancestors below) :
    (visit source target depth ancestors (source.below below) (Path.below ⟨[]⟩ below) entry).Ends
      world (fun _ _ => CopyableBelow start source target top below)
      (fun _ _ => ¬ CopyableBelow start source target top below) := by
  have sourceNonempty := FileSystem.nonempty_of_locate found
  induction depth generalizing ancestors below location entry world with
  | zero =>
    intro all
    obtain ⟨fault, -, failed⟩ := @FileSystem.locate_of_long start (source.below below) .target
      (by omega)
    cases (all.here node).found.symm.trans failed
  | succ depth ih =>
    have steadyHere := steady below
    unfold visit
    simp only [Action.ends_bind, Action.ends_blaming]
    refine (follow_completes tree found isTop node shows climbs confined steadyHere).mono ?_
      fun _ _ failed all => failed (all.here node).found
    rintro stood world ⟨rfl, stands⟩
    split
    · simp only [Action.ends_bind, ends_openDirectory, Action.ends_blaming]
      refine ⟨fun location' listing located listed => ?_, fun fault failed => ?_⟩
      · obtain ⟨_, located', -, rfl⟩ := steadyHere.directory_of_list confined listed
        rw [steadyHere.locate confined, located'] at located
        obtain rfl := Except.ok.inj located
        obtain rfl := node.unique (Follows.of_locate found isTop located')
        have outside := steadyHere.outside confined located'
        refine (Files.makeDirectories_succeeds confined (descends_destination descends below)
          (by simp [proper]) notDot vacant.free).mono ?_ fun _ _ failed all =>
            failed (all.here node).fits
        rintro _ made ⟨fits, planted⟩
        refine (entries_complete _ (nodup_sorted_children _ _) planted
          (confined.worked_of_paved planted.paved) vacant ?_).mono ?_ fun _ _ failed => failed
        · intro name member middle worked vacantChild
          have standsBelow := FileSystem.mem_children.1 (List.mem_mergeSort.1 member)
          rw [get?_entry confined rooted outside] at standsBelow
          obtain ⟨item, further, isItem, child, showsChild⟩ := tree.exists_child node standsBelow
          rw [get?_entry worked.confined rooted outside, isItem, Option.getD_some,
            ← Path.below_concat ⟨[]⟩]
          have longer := @Path.length_base_lt_length_join (source.below below) name.toPath
            name.bytes_toPath_ne_nil name.isAbsolute_toPath
          have completed := ih worked.confined vacantChild (steady.later worked) child
            (by rw [Path.below_concat]; omega) (destination_join target below name).1 showsChild
            (climbs.step node (source.below below) name)
          obtain ⟨relative, moves⟩ := relative_below (below ++ [name])
          have visited := visit_ends sourceNonempty descends depth
            (⟨source.below below, location⟩ :: ancestors) (by simp) relative moves item
            worked.confined
          exact (visited.and completed).mono (fun _ _ done => ⟨done.1.1, done.2⟩)
            fun _ _ failed => failed.2
        · intro count _ done
          refine .of_children node ⟨located', ?_, fits⟩ fun name _ standsBelow => done name ?_
          · intro entry stands'
            exact .inl (Option.some.inj (stands'.symm.trans stands))
          · exact List.mem_mergeSort.2 (steadyHere.mem_list confined listed located' standsBelow)
      · have opens : start.locate .target (source.below below) = .ok location →
            False := fun located => by
          have opened := openDirectory_eq_ok_iff.2 ⟨(steadyHere.locate confined).trans located,
            steadyHere.list_of_locate confined located stands⟩
          cases opened.symm.trans failed
        exact .of_forall (fun _ _ all => opens (all.here node).found)
          fun _ _ all => opens (all.here node).found
    · next notDirectory =>
      simp only [Action.ends_bind, Action.ends_pure]
      exact visit_file_completes found isTop descends proper confined vacant steadyHere node
        stands fun same => notDirectory same

end Walk

/-- A walk stops at its first directory if its target ends in a `.` and has nothing there. -/
theorem visit_of_dot {entry : Entry} (found : start.locate .target source = .ok top)
    (isTop : start.get? top = some .directory) (descends : Path.Descends base names target)
    (proper : names ≠ []) (confined : Confined start base root world.files)
    (nothing : world.files.get? (root ++ names) = none) (tree : start.FiniteTree top)
    (steady : Steady start base root world.files source) (ends : target.EndsInDot) (depth : Nat)
    (shows : (∀ link, entry ≠ .link link) → start.get? top = some entry) :
    (visit source target depth [] source ⟨[]⟩ entry).Ends world (fun _ _ => False)
      (fun _ _ => True) := by
  cases depth with
  | zero => trivial
  | succ depth =>
    unfold visit
    simp only [Action.ends_bind, Action.ends_blaming]
    refine (follow_completes tree found isTop (.nil start top) shows (.nil _ _ _) confined
      steady).mono ?_ fun _ _ _ => trivial
    rintro stood world ⟨rfl, stands⟩
    obtain rfl := Option.some.inj (stands.symm.trans isTop)
    simp only [Action.ends_bind, ends_openDirectory, Action.ends_blaming]
    refine ⟨fun _ _ _ _ => ?_, fun _ _ => .of_forall (fun _ _ => trivial) fun _ _ => trivial⟩
    have descendsTop := descends_destination descends []
    rw [List.append_nil, Path.below_nil] at descendsTop
    exact (Files.makeDirectories_of_dot confined descendsTop proper
      (Path.endsInDot_join_empty.2 ends) nothing).mono (fun _ _ never => never.elim)
        fun _ _ _ => trivial

/-- A copy of a finite tree to a place where nothing is succeeds if, and only if, its target does
not end in a `.` and all of the tree can be dealt with. -/
theorem copy_completes (found : world.files.locate .target source = .ok top)
    (isTop : world.files.get? top = some .directory) (tree : world.files.FiniteTree top)
    (apart : world.files.Apart root source) (descends : Path.Descends base names target)
    (proper : names ≠ []) (confined : Confined world.files base root world.files)
    (vacant : world.files.Vacant (root ++ names)) :
    (copy source target).Ends world
      (fun _ _ => ¬ target.EndsInDot ∧ CopyableBelow world.files source target top [])
      (fun _ _ => ¬ (¬ target.EndsInDot ∧ CopyableBelow world.files source target top [])) := by
  have examined := FileSystem.examine_of_locate found isTop
  unfold copy
  simp only [Action.ends_bind, Action.ends_blaming, Action.ends_look]
  refine ⟨fun entry answer => ?_, fun fault failed => ?_⟩
  · obtain rfl := Except.ok.inj (examined.symm.trans answer)
    simp only [Entry.isFile, Bool.false_eq_true, if_false, Action.ends_bind, Action.ends_blaming,
      Action.ends_look]
    obtain ⟨first, isFirst, isLink⟩ := FileSystem.examineLink_of_locate found
    refine ⟨fun entry answer => ?_, fun fault failed => ?_⟩
    · obtain rfl := Except.ok.inj (isFirst.symm.trans answer)
      have shows : (∀ link, first ≠ .link link) → world.files.get? top = some first := by
        intro notLink
        rcases isLink with ⟨link, same⟩ | same
        · exact absurd same (notLink link)
        · rw [isTop, Except.ok.inj (examined.symm.trans same)]
      by_cases ends : target.EndsInDot
      · exact (visit_of_dot found isTop descends proper confined vacant.nothing tree
          apart.here.steady ends _ shows).mono (fun _ _ never => never.elim)
            fun _ _ _ both => both.1 ends
      · have long := List.length_pos_iff.2 (FileSystem.nonempty_of_locate found)
        have completes : (visit source target (pathLimit + 1) [] (source.below [])
            (Path.below ⟨[]⟩ []) first).Ends world
              (fun _ _ => CopyableBelow world.files source target top [])
              (fun _ _ => ¬ CopyableBelow world.files source target top []) :=
          visit_completes found isTop descends proper confined (by rwa [List.append_nil]) tree
            confined.isDirectory (.of_apart apart) (.nil _ _) _ (by rw [Path.below_nil]; omega)
            (by rwa [Path.below_nil, Path.endsInDot_join_empty]) shows (.nil _ _ _)
        exact completes.mono (fun _ _ all => ⟨ends, all⟩) fun _ _ failed both => failed both.2
    · cases isFirst.symm.trans failed
  · cases examined.symm.trans failed

end ImageStaging.TreeCopy
