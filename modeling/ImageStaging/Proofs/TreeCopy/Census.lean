import Mathlib.Data.Set.Card
import ImageStaging.Proofs.FileSystem.Same
import ImageStaging.Proofs.TreeCopy

/-!
# What a copy has met when it succeeds

If the tree of the source stays as it was while the copy works, a copy that succeeds has met all of
it: it has counted every file once, there is nothing but files and directories, and no link in the
tree is a trap, which leads nowhere or back to a directory that leads to the link. A walk keeps the
directories that it is in, so that it can tell.
-/

namespace ImageStaging.TreeCopy

open FileSystem (Confined Worked)
open ImageStaging.Action (Ends)

variable {start files : FileSystem} {base source target : Path} {root location : Location}
  {names below front seen listing : List Name} {name : Name} {world : World}
  {tree : List Name → Option Entry} {count : Nat}

/-! ## Counting files -/

/-- Where a tree has a file. -/
def filesOf (tree : List Name → Option Entry) : Set (List Name) :=
  {names | ∃ entry, tree names = some entry ∧ entry.isFile = true}

/-- Where a tree has a file below one of some names. -/
def filesUnder (tree : List Name → Option Entry) (seen : List Name) : Set (List Name) :=
  {names | names ∈ filesOf tree ∧ ∃ name ∈ seen, ∃ rest, names = name :: rest}

theorem filesUnder_nil (tree : List Name → Option Entry) : filesUnder tree [] = ∅ := by
  refine Set.eq_empty_of_forall_notMem ?_
  rintro names ⟨-, name, member, -⟩
  cases member

theorem filesUnder_concat (tree : List Name → Option Entry) (seen : List Name) (name : Name) :
    filesUnder tree (seen ++ [name]) =
      filesUnder tree seen ∪ (name :: ·) '' filesOf fun rest => tree (name :: rest) := by
  ext names
  constructor
  · rintro ⟨isFile, name', member, rest, rfl⟩
    rcases List.mem_append.1 member with earlier | isLast
    · exact .inl ⟨isFile, name', earlier, rest, rfl⟩
    · obtain rfl := List.mem_singleton.1 isLast
      exact .inr ⟨rest, isFile, rfl⟩
  · rintro (⟨isFile, name', earlier, rest, rfl⟩ | ⟨rest, isFile, rfl⟩)
    · exact ⟨isFile, name', List.mem_append_left _ earlier, rest, rfl⟩
    · exact ⟨isFile, name, List.mem_append_right _ (List.mem_singleton_self name), rest, rfl⟩

/-- The files below one more name add to those that have been counted. -/
theorem encard_filesUnder_concat {more : Nat} (fresh : name ∉ seen)
    (counted : (filesUnder tree seen).encard = count)
    (countedMore : (filesOf fun rest => tree (name :: rest)).encard = more) :
    (filesUnder tree (seen ++ [name])).encard = ((count + more : Nat) : ℕ∞) := by
  have apart : Disjoint (filesUnder tree seen)
      ((name :: ·) '' filesOf fun rest => tree (name :: rest)) := by
    rw [Set.disjoint_left]
    rintro _ ⟨-, name', member, rest, same⟩ ⟨rest', -, rfl⟩
    exact fresh ((List.cons.inj same).1 ▸ member)
  rw [filesUnder_concat, Set.encard_union_eq apart, (List.cons_injective).encard_image, counted,
    countedMore, Nat.cast_add]

/-! ## Traps -/

/-- At a name in a directory of the tree stands a link that leads nowhere, or to a directory that is
on the way to it. -/
def TrapAt (files : FileSystem) (source : Path) (front : List Name) (name : Name) : Prop :=
  ∃ location target, files.locate .target (source.below front) = .ok location ∧
    files.get? (location ++ [name]) = some (.link target) ∧
    ((∃ fault, files.locate .target (source.below (front ++ [name])) = .error fault) ∨
      ∃ directory above, files.locate .target (source.below (front ++ [name])) = .ok directory ∧
        files.get? directory = some .directory ∧ above <+: front ∧
          files.locate .target (source.below above) = .ok directory)

/-- A trap stands in a directory. -/
theorem TrapAt.examine (trap : TrapAt files source front name) :
    files.examine (source.below front) = .ok .directory := by
  obtain ⟨location, target, found, isLink, -⟩ := trap
  refine FileSystem.examine_of_locate found ?_
  exact FileSystem.get?_append_of_isSome (by rw [isLink]; rfl) (List.cons_ne_nil name [])

/-! ## What is met -/

/-- What a walk that has gone through the tree below some names has met there. -/
structure Met (files : FileSystem) (source : Path) (below : List Name) (count : Nat) : Prop where
  found : ∃ location, files.locate .target (source.below below) = .ok location
  kinds : ∀ names entry, files.tree (source.below below) names = some entry →
    entry = .directory ∨ entry.isFile = true
  counted : (filesOf (files.tree (source.below below))).encard = count
  free : ∀ front name, below <+: front → ¬ TrapAt files source front name

/-- A file is met once, and there is nothing below it. -/
theorem Met.of_file (nonempty : source.bytes ≠ []) {content : Bytes} {executable : Bool}
    (isFile : files.examine (source.below below) = .ok (.file content executable)) :
    Met files source below 1 := by
  have nonempty := Path.bytes_below_ne_nil nonempty below
  have flat : ∀ name rest, files.tree (source.below below) (name :: rest) = none := fun name rest =>
    FileSystem.tree_of_not_directory nonempty isFile (by simp) rest
  have top : files.tree (source.below below) [] = some (.file content executable) :=
    FileSystem.tree_eq_some_iff.2 isFile
  obtain ⟨location, found, -⟩ := FileSystem.leads_of_examine isFile
  refine ⟨⟨location, found⟩, ?_, ?_, ?_⟩
  · intro names entry stands
    cases names with
    | nil =>
      obtain rfl := Option.some.inj (top.symm.trans stands)
      exact .inr rfl
    | cons name rest => cases (flat name rest).symm.trans stands
  · have single : filesOf (files.tree (source.below below)) = {[]} := by
      ext names
      cases names with
      | nil => exact ⟨fun _ => rfl, fun _ => ⟨_, top, rfl⟩⟩
      | cons name rest =>
        constructor
        · rintro ⟨entry, stands, -⟩
          cases (flat name rest).symm.trans stands
        · intro impossible
          cases impossible
    rw [single, Set.encard_singleton, Nat.cast_one]
  · rintro _ name ⟨rest, rfl⟩ trap
    have isDirectory : files.tree (source.below below) rest = some .directory := by
      rw [FileSystem.tree_eq_some_iff, ← Path.below_append]
      exact trap.examine
    cases rest with
    | nil => cases top.symm.trans isDirectory
    | cons name rest => cases (flat name rest).symm.trans isDirectory

/-- What a walk has met when it has gone through some entries of a directory. -/
structure MetEach (files : FileSystem) (source : Path) (below seen : List Name) (count : Nat) :
    Prop where
  counted : (filesUnder (files.tree (source.below below)) seen).encard = count
  each : ∀ name ∈ seen, (∃ more, Met files source (below ++ [name]) more) ∧
    ¬ TrapAt files source below name

theorem MetEach.nil (files : FileSystem) (source : Path) (below : List Name) :
    MetEach files source below [] 0 := by
  refine ⟨?_, fun _ member => (List.not_mem_nil member).elim⟩
  rw [filesUnder_nil, Set.encard_empty, Nat.cast_zero]

theorem MetEach.step {more : Nat} (metEach : MetEach files source below seen count)
    (fresh : name ∉ seen) (met : Met files source (below ++ [name]) more)
    (notTrap : ¬ TrapAt files source below name) :
    MetEach files source below (seen ++ [name]) (count + more) := by
  refine ⟨encard_filesUnder_concat fresh metEach.counted ?_, fun name' member => ?_⟩
  · rw [← met.counted]
    congr 2
    exact funext fun rest => tree_below_cons files source below rest name
  · rcases List.mem_append.1 member with earlier | isLast
    · exact metEach.each name' earlier
    · obtain rfl := List.mem_singleton.1 isLast
      exact ⟨⟨more, met⟩, notTrap⟩

/-- All of a directory is met when each of its entries is. -/
theorem MetEach.met (metEach : MetEach files source below listing count)
    (nonempty : source.bytes ≠ [])
    (found : files.locate .target (source.below below) = .ok location)
    (isDirectory : files.get? location = some .directory)
    (complete : ∀ name, (files.get? (location ++ [name])).isSome → name ∈ listing) :
    Met files source below count := by
  have nonempty := Path.bytes_below_ne_nil nonempty below
  have top : files.tree (source.below below) [] = some .directory :=
    FileSystem.tree_eq_some_iff.2 (FileSystem.examine_of_locate found isDirectory)
  have listed : ∀ name rest entry, files.tree (source.below below) (name :: rest) = some entry →
      name ∈ listing := by
    intro name rest entry stands
    obtain ⟨location', found', -, standsBelow⟩ := FileSystem.locate_of_tree_cons nonempty stands
    obtain rfl := Except.ok.inj (found.symm.trans found')
    exact complete name standsBelow
  refine ⟨⟨location, found⟩, ?_, ?_, ?_⟩
  · intro names entry stands
    cases names with
    | nil =>
      obtain rfl := Option.some.inj (top.symm.trans stands)
      exact .inl rfl
    | cons name rest =>
      obtain ⟨⟨more, met⟩, -⟩ := metEach.each name (listed name rest entry stands)
      rw [tree_below_cons] at stands
      exact met.kinds rest entry stands
  · rw [← metEach.counted]
    congr 1
    ext names
    refine ⟨fun isFile => ⟨isFile, ?_⟩, fun ⟨isFile, _⟩ => isFile⟩
    obtain ⟨entry, stands, isFile⟩ := isFile
    cases names with
    | nil =>
      obtain rfl := Option.some.inj (top.symm.trans stands)
      cases isFile
    | cons name rest => exact ⟨name, listed name rest entry stands, rest, rfl⟩
  · rintro _ name ⟨rest, rfl⟩ trap
    cases rest with
    | nil =>
      rw [List.append_nil] at trap
      obtain ⟨location', target, found', isLink, -⟩ := id trap
      obtain rfl := Except.ok.inj (found.symm.trans found')
      exact (metEach.each name (complete name (by rw [isLink]; rfl))).2 trap
    | cons name' rest =>
      have stands : files.tree (source.below below) (name' :: rest) = some .directory := by
        rw [FileSystem.tree_eq_some_iff, ← Path.below_append]
        exact trap.examine
      obtain ⟨⟨more, met⟩, -⟩ := metEach.each name' (listed name' rest _ stands)
      refine met.free _ name ⟨rest, ?_⟩ trap
      rw [List.append_assoc, List.singleton_append]

/-! ## The walk -/

/-- The walk knows the directories above a path as those that it is in. -/
def Covers (files : FileSystem) (source : Path) (ancestors : List Ancestor) (below : List Name) :
    Prop :=
  ∀ above location, above <+: below → above ≠ below →
    files.locate .target (source.below above) = .ok location →
      ∃ ancestor ∈ ancestors, ancestor.location = location

theorem Covers.step {ancestors : List Ancestor} (covers : Covers files source ancestors below)
    (found : files.locate .target (source.below below) = .ok location) (path : Path) (name : Name) :
    Covers files source (⟨path, location⟩ :: ancestors) (below ++ [name]) := by
  intro above location' within differ found'
  rcases List.prefix_concat_iff.1 within with same | within
  · exact absurd same differ
  · by_cases same : above = below
    · rw [same, found] at found'
      exact ⟨_, List.mem_cons_self, Except.ok.inj found'⟩
    · obtain ⟨ancestor, member, same⟩ := covers above location' within same found'
      exact ⟨ancestor, List.mem_cons_of_mem _ member, same⟩

/-- Where a link leads to a directory, the walk is not in it. -/
def LeadsOut (files : FileSystem) (ancestors : List Ancestor) (path : Path) (entry : Entry) : Prop :=
  ∀ target directory, entry = .link target → files.locate .target path = .ok directory →
    files.get? directory = some .directory → ∀ ancestor ∈ ancestors, ancestor.location ≠ directory

theorem follow_leadsOut (ancestors : List Ancestor) (path : Path) (entry : Entry) (world : World) :
    (follow ancestors path entry).Ends world
      (fun _ _ => LeadsOut world.files ancestors path entry) (fun _ _ => True) := by
  unfold follow
  split
  · simp only [Action.ends_bind, Action.ends_blaming, Action.ends_look, Action.ends_get]
    refine ⟨?_, fun _ _ => trivial⟩
    intro location found
    split
    · next isDirectory =>
      split
      · trivial
      · next nowhere =>
        rintro target directory - found' - ancestor member same
        obtain rfl := Except.ok.inj (found.symm.trans found')
        exact List.find?_eq_none.1 nowhere ancestor member (by simpa using same)
    · next entry isOther notDirectory =>
      rintro target directory - found' isDirectory
      obtain rfl := Except.ok.inj (found.symm.trans found')
      exact absurd (Option.some.inj (notDirectory.symm.trans isDirectory)) isOther
    · trivial
  · next notLink =>
    rintro target directory isLink
    exact absurd isLink (notLink target)

section Walk

variable (rooted : start.get? root = some .directory)
include rooted

/-- What the walk met at a name is no trap. -/
theorem not_trapAt {ancestors : List Ancestor} (confined : Confined start base root files)
    (steady : SteadyTree start base root files source)
    (found : start.locate .target (source.below below) = .ok location)
    (covers : Covers start source ancestors (below ++ [name]))
    (leadsOut : LeadsOut start ancestors (source.below (below ++ [name]))
      ((files.get? (location ++ [name])).getD .directory)) {more : Nat}
    (met : Met start source (below ++ [name]) more) : ¬ TrapAt start source below name := by
  rintro ⟨location', target, found', isLink, leads⟩
  obtain rfl := Except.ok.inj (found.symm.trans found')
  have outside : ¬ root <+: location ++ [name] := by
    intro within
    rcases List.prefix_concat_iff.1 within with same | below'
    · rw [← same, rooted] at isLink
      cases isLink
    · exact (steady below).outside confined found below'
  rw [confined.agree.get? _ outside, isLink] at leadsOut
  rcases leads with ⟨fault, failed⟩ | ⟨directory, above, leads, isDirectory, within, itself⟩
  · obtain ⟨end', found'⟩ := met.found
    cases failed.symm.trans found'
  · have differ : above ≠ below ++ [name] := by
      rintro rfl
      have := within.length_le
      simp at this
    obtain ⟨ancestor, member, same⟩ :=
      covers above directory (within.trans (List.prefix_append _ _)) differ itself
    exact leadsOut target directory rfl leads isDirectory ancestor member same

/-- The entries of a directory that was made are met one after the other. -/
theorem entries_meet {made : World} {depth : Nat} {ancestors : List Ancestor} (relative : Path)
    (nodup : listing.Nodup) (steady : SteadyTree start base root files source)
    (found : start.locate .target (source.below below) = .ok location)
    (covers : Covers start source ancestors below)
    (worked : Worked start base root (names ++ below) files made.files)
    (visits : ∀ name middle, Worked start base root (names ++ below) files middle.files →
      (visit source target depth (⟨source.below below, location⟩ :: ancestors)
          (source.below (below ++ [name])) (relative.join name.toPath)
          ((middle.files.get? (location ++ [name])).getD .directory)).Ends middle
        (fun more after =>
          Worked start base root (names ++ (below ++ [name])) middle.files after.files ∧
            Met start source (below ++ [name]) more ∧
              LeadsOut start (⟨source.below below, location⟩ :: ancestors)
                (source.below (below ++ [name]))
                ((middle.files.get? (location ++ [name])).getD .directory))
        (fun _ _ => True)) :
    (listing.foldlM (copyEntry source target depth ancestors (source.below below) relative
        location) 0).Ends made
      (fun count after => Worked start base root (names ++ below) files after.files ∧
        MetEach start source below listing count) (fun _ _ => True) := by
  refine Ends.foldlM_split (fun seen count after =>
    Worked start base root (names ++ below) files after.files ∧
      MetEach start source below seen count) ⟨worked, .nil _ _ _⟩ ?_
  rintro seen name rest split copied middle ⟨worked, metEach⟩
  have fresh : name ∉ seen := by
    rw [split] at nodup
    exact fun member => List.disjoint_of_nodup_append nodup member List.mem_cons_self
  simp only [copyEntry, Action.ends_bind, Action.ends_get, Action.ends_pure]
  rw [← Path.below_concat]
  refine (visits name middle worked).mono ?_ fun _ _ _ => trivial
  rintro more after ⟨further, met, leadsOut⟩
  rw [← List.append_assoc] at further
  have notTrap := not_trapAt rooted worked.confined (steady.later worked) found
    (covers.step found (source.below below) name) leadsOut met
  exact ⟨worked.trans further, metEach.step fresh met notTrap⟩

theorem visit_meets (sourceNonempty : source.bytes ≠ []) (descends : Path.Descends base names target)
    (depth : Nat) (ancestors : List Ancestor) (proper : names ++ below ≠ []) {relative : Path}
    (isRelative : relative.isAbsolute = false) (moves : relative.moves = below.map .enter)
    (entry : Entry) (confined : Confined start base root world.files)
    (steady : SteadyTree start base root world.files source)
    (covers : Covers start source ancestors below) :
    (visit source target depth ancestors (source.below below) relative entry).Ends world
      (fun count after => Worked start base root (names ++ below) world.files after.files ∧
        Met start source below count ∧ LeadsOut start ancestors (source.below below) entry)
      (fun _ _ => True) := by
  induction depth generalizing ancestors below relative entry world with
  | zero => trivial
  | succ depth ih =>
    have descendsBelow := descends.join isRelative moves
    unfold visit
    simp only [Action.ends_bind, Action.ends_blaming]
    refine ((follow_ends ancestors _ entry).and (follow_leadsOut ancestors _ entry world)).mono ?_
      fun _ _ _ => trivial
    rintro found world ⟨rfl, leadsOut⟩
    have leadsOut : LeadsOut start ancestors (source.below below) entry := by
      rintro linkTarget directory isLink leads isDirectory
      refine leadsOut linkTarget directory isLink ?_ ?_
      · rw [(steady below).locate confined, leads]
      · rw [confined.agree.get? _ ((steady below).outside confined leads), isDirectory]
    split
    · simp only [Action.ends_bind, ends_openDirectory, Action.ends_blaming]
      have make := Files.makeDirectories_ends confined descendsBelow
      refine ⟨fun location listing located listed => ?_,
        fun _ _ => make.mono (fun _ _ _ => trivial) fun _ _ _ => trivial⟩
      rw [(steady below).locate confined] at located
      refine make.mono ?_ fun _ _ _ => trivial
      intro _ made planted
      have visits := fun name (middle : World) (worked : Worked start base root (names ++ below)
          world.files middle.files) =>
        ih (⟨source.below below, location⟩ :: ancestors) (by simp)
          (relative_join isRelative moves name).1 (relative_join isRelative moves name).2
          ((middle.files.get? (location ++ [name])).getD .directory) worked.confined
          (steady.later worked) (covers.step located (source.below below) name)
      obtain ⟨location', found', isDirectory, rfl⟩ := (steady below).directory_of_list confined listed
      obtain rfl := Except.ok.inj (located.symm.trans found')
      refine (entries_meet rooted relative (nodup_sorted_children _ _) steady located covers
        (confined.worked_of_paved planted.paved) visits).mono ?_ fun _ _ _ => trivial
      rintro count after ⟨worked, metEach⟩
      refine ⟨worked, metEach.met sourceNonempty located isDirectory fun name stands => ?_, leadsOut⟩
      exact List.mem_mergeSort.2 ((steady below).mem_list confined listed located stands)
    · simp only [Action.ends_bind, Action.ends_pure]
      refine (copyFile_ends _ confined descendsBelow proper).mono ?_ fun _ _ _ => trivial
      rintro _ after ⟨content, executable, planted, faithful⟩
      exact ⟨confined.worked_of_planted planted (by simp [proper]) (.inr rfl),
        .of_file sourceNonempty (faithful (steady below)), leadsOut⟩

end Walk

end ImageStaging.TreeCopy
