import ImageStaging.Proofs.FileSystem.Work

/-!
# The tree below a path

`tree` is what can be read below a path when every link is followed, and `Overlaid` is a copy of
such a tree laid over what stood at a location before. A path that goes on below another can only
be read if the other leads to a directory, which is how the entries of a tree are found one level at
a time. A copy that stops on the way is `PartLaid`: it takes nothing away that the tree agrees with.
-/

namespace ImageStaging

theorem Path.prefix_join {base path : Path} (relative : path.isAbsolute = false) :
    base.bytes <+: (base.join path).bytes := by
  unfold join
  rw [if_neg (by simp [relative])]
  split
  · exact List.prefix_append _ _
  · exact List.prefix_append _ _

theorem Path.prefix_below (path : Path) (names : List Name) :
    path.bytes <+: (path.below names).bytes := by
  induction names generalizing path with
  | nil => exact List.prefix_rfl
  | cons name rest ih => exact (prefix_join (by simp)).trans (ih _)

namespace FileSystem

/-- What a path leads to when it goes on below by names. -/
def tree (files : FileSystem) (path : Path) (names : List Name) : Option Entry :=
  (files.examine (path.below names)).toOption

theorem tree_eq_some_iff {files : FileSystem} {path : Path} {names : List Name} {entry : Entry} :
    files.tree path names = some entry ↔ files.examine (path.below names) = .ok entry := by
  rw [tree]
  cases files.examine (path.below names) <;> simp [Except.toOption]

theorem mem_children {files : FileSystem} {directory : Location} {name : Name} :
    name ∈ files.children directory ↔ (files.get? (directory ++ [name])).isSome := by
  have isLookup : files.get? (directory ++ [name]) =
      files.entries.lookup (directory ++ [name]) := by
    simp [get?, find]
  rw [isLookup, List.lookup_isSome_iff, children]
  simp only [List.mem_filterMap, Option.ite_none_right_eq_some, beq_iff_eq]
  constructor
  · rintro ⟨item, member, rfl, last⟩
    exact ⟨item, member, List.dropLast_append_getLast? _ last⟩
  · rintro ⟨item, member, same⟩
    refine ⟨item, member, ?_⟩
    rw [← same]
    simp

theorem checkPath_of_prefix {path more : Path} (isPrefix : path.bytes <+: more.bytes)
    (nonempty : path.bytes ≠ []) (checked : checkPath more = .ok ()) :
    checkPath path = .ok () := by
  unfold checkPath at checked ⊢
  split at checked
  · cases checked
  · next noNul =>
    split at checked
    · cases checked
    · split at checked
      · cases checked
      · next short =>
        have noNul' : (0 : UInt8) ∉ path.bytes := fun member => noNul (isPrefix.subset member)
        have short' := isPrefix.length_le
        rw [if_neg noNul', if_neg nonempty, if_neg (by omega)]

variable {files other : FileSystem} {path : Path} {names : List Name} {entry : Entry}
  {region : Location}

theorem leads_of_examine (found : files.examine path = .ok entry) :
    ∃ location, files.locate .target path = .ok location ∧
      (files.get? location).getD .directory = entry := by
  rw [examine] at found
  cases place : files.locate .target path with
  | error fault => rw [place] at found; cases found
  | ok location =>
    rw [place] at found
    exact ⟨location, rfl, Except.ok.inj found⟩

theorem examine_of_locate {location : Location} (found : files.locate .target path = .ok location)
    (stands : files.get? location = some entry) : files.examine path = .ok entry := by
  rw [examine, found]
  simp only [bind, Except.bind, pure, Except.pure, stands, Option.getD_some]

/-- Only a directory has something below it. -/
theorem locate_of_tree_cons (nonempty : path.bytes ≠ []) {name : Name}
    (stands : files.tree path (name :: names) = some entry) :
    ∃ location, files.locate .target path = .ok location ∧
      files.get? location = some .directory ∧ (files.get? (location ++ [name])).isSome := by
  rw [tree_eq_some_iff] at stands
  obtain ⟨location, found, _⟩ := leads_of_examine stands
  obtain ⟨used, few, walk⟩ := leads_of_locate found
  rw [Path.startOf_below] at walk
  obtain ⟨left, fewLeft, middle, front, standsBelow⟩ := walk.before (Path.moves_below _ _)
  have standsBelow := standsBelow name rfl
  have isDirectory : files.get? middle = some .directory :=
    get?_append_of_isSome standsBelow (by simp)
  have checked : checkPath path = .ok () :=
    checkPath_of_prefix (Path.prefix_below path _) nonempty
      (checkPath_of_resolve (locate_eq_ok_iff.1 found))
  have leads : files.Leads path (.present middle) := ⟨left, fewLeft.trans few, front.lax⟩
  exact ⟨middle, leads.locate_directory isDirectory checked, isDirectory, standsBelow⟩

/-- What lies below the end of a path can be read only if the end can. -/
theorem examine_ne_notFound_of_tree (nonempty : path.bytes ≠ [])
    (stands : files.tree path names = some entry) : files.examine path ≠ .error .notFound := by
  intro missing
  cases names with
  | nil =>
    rw [tree_eq_some_iff, Path.below_nil, missing] at stands
    cases stands
  | cons name rest =>
    obtain ⟨location, found, isDirectory, _⟩ := locate_of_tree_cons nonempty stands
    rw [examine, found] at missing
    cases missing

theorem exists?_eq_ok_false_iff : files.exists? path = .ok false ↔
    files.examine path = .error .notFound := by
  rw [exists?]
  cases files.examine path with
  | ok entry => simp
  | error fault => cases fault <;> simp

theorem exists?_eq_ok_true_iff : files.exists? path = .ok true ↔
    ∃ entry, files.examine path = .ok entry := by
  rw [exists?]
  cases files.examine path with
  | ok entry => simp
  | error fault => cases fault <;> simp

/-- What a path leads to is not missing. -/
theorem Leads.exists?_ne_false {location : Location} (leads : files.Leads path (.present location))
    (nonempty : path.bytes ≠ []) : files.exists? path ≠ .ok false := by
  intro missing
  rw [exists?_eq_ok_false_iff, examine, locate] at missing
  cases checked : checkPath path with
  | error fault =>
    rw [resolve, checked] at missing
    obtain rfl := Except.error.inj missing
    exact checkPath_ne_notFound nonempty checked
  | ok =>
    rcases leads.answers checked with answer | ⟨_, answer⟩
    · rw [answer] at missing
      cases missing
    · rw [answer] at missing
      cases missing

/-- A walk to an entry goes the same way among more entries. -/
theorem Walks.extend {strict : Bool} {used : Nat} {here location : Location}
    {ahead : List PathStep} (walk : Walks files strict used here ahead (.present location))
    (more : ∀ place entry, files.get? place = some entry → other.get? place = some entry) :
    Walks other strict used here ahead (.present location) := by
  generalize ending : Found.present location = found at walk ⊢
  induction walk with
  | arrive => exact .arrive
  | up _ ih => exact .up (ih ending)
  | enter isDirectory _ ih => exact .enter (more _ _ isDirectory) (ih ending)
  | other stands notDirectory notLink lax =>
    exact .other (more _ _ stands) notDirectory notLink lax
  | missing => cases ending
  | link stands _ ih => exact .link (more _ _ stands) (ih ending)

/-- What exists does not come to be missing among more entries. -/
theorem exists?_ne_false_of_more (sameDirectory : other.workingDirectory = files.workingDirectory)
    (more : ∀ place entry, files.get? place = some entry → other.get? place = some entry)
    (nonempty : path.bytes ≠ []) (holds : files.exists? path = .ok true) :
    other.exists? path ≠ .ok false := by
  obtain ⟨entry, found⟩ := exists?_eq_ok_true_iff.1 holds
  obtain ⟨location, place, _⟩ := leads_of_examine found
  obtain ⟨used, few, walk⟩ := leads_of_locate place
  rw [← startOf_congr sameDirectory] at walk
  have leads : other.Leads path (.present location) := ⟨used, few, walk.extend more⟩
  exact leads.exists?_ne_false nonempty

/-- Below what does not exist there is nothing. -/
theorem tree_of_missing (nonempty : path.bytes ≠ []) (missing : files.exists? path = .ok false)
    (names : List Name) : files.tree path names = none := by
  by_contra some
  obtain ⟨entry, stands⟩ := Option.ne_none_iff_exists'.1 some
  exact examine_ne_notFound_of_tree nonempty stands (exists?_eq_ok_false_iff.1 missing)

/-- There is nothing below a file. -/
theorem tree_of_not_directory (nonempty : path.bytes ≠ []) (found : files.examine path = .ok entry)
    (notDirectory : entry ≠ .directory) {name : Name} (rest : List Name) :
    files.tree path (name :: rest) = none := by
  by_contra some
  obtain ⟨entry', stands⟩ := Option.ne_none_iff_exists'.1 some
  obtain ⟨location, place, isDirectory, _⟩ := locate_of_tree_cons nonempty stands
  exact notDirectory (Except.ok.inj (found.symm.trans (examine_of_locate place isDirectory)))

theorem Apart.here (apart : files.Apart region path) : files.Avoids region path :=
  apart []

theorem Apart.below (apart : files.Apart region path) (front : List Name) :
    files.Apart region (path.below front) := by
  intro rest
  rw [← Path.below_append]
  exact apart (front ++ rest)

theorem list_ok {listing : List Name} (listed : files.list path = .ok listing) :
    ∃ location, files.locate .target path = .ok location ∧
      files.get? location = some .directory ∧ listing = files.children location := by
  rw [list] at listed
  cases place : files.locate .target path with
  | error fault => rw [place] at listed; cases listed
  | ok location =>
    rw [place] at listed
    simp only [bind, Except.bind] at listed
    split at listed
    · next isDirectory => exact ⟨location, rfl, isDirectory, (Except.ok.inj listed).symm⟩
    · cases listed
    · cases listed

/-- However the work in a directory goes on, the path leads where it led before the work began, and
that is not into the directory. -/
def Steady (start : FileSystem) (base : Path) (root : Location) (files : FileSystem)
    (path : Path) : Prop :=
  ∀ other, Worked start base root [] files other →
    other.locate .target path = start.locate .target path ∧
      ∀ location, start.locate .target path = .ok location → ¬ root <+: location

theorem Avoids.steady {start : FileSystem} {base : Path} (avoids : start.Avoids region path) :
    Steady start base region files path := fun _ worked =>
  ⟨worked.confined.agree.locate_eq avoids, fun _ found => not_below_of_locate avoids found⟩

namespace Steady

variable {start : FileSystem} {base : Path} {root : Location} {listing : List Name}
  (steady : Steady start base root files path)
include steady

theorem later (worked : Worked start base root names files other) :
    Steady start base root other path := fun third further =>
  steady third (worked.widen.trans further)

variable (confined : Confined start base root files)
include confined

theorem locate : files.locate .target path = start.locate .target path :=
  (steady files (confined.worked [])).1

theorem outside {location : Location} (found : start.locate .target path = .ok location) :
    ¬ root <+: location :=
  (steady files (confined.worked [])).2 location found

theorem directory_of_list (listed : files.list path = .ok listing) : ∃ location,
    start.locate .target path = .ok location ∧ start.get? location = some .directory ∧
      listing = files.children location := by
  obtain ⟨location, found, isDirectory, same⟩ := list_ok listed
  rw [steady.locate confined] at found
  rw [confined.agree.get? location (steady.outside confined found)] at isDirectory
  exact ⟨location, found, isDirectory, same⟩

theorem list_of_locate {location : Location} (found : start.locate .target path = .ok location)
    (isDirectory : start.get? location = some .directory) :
    files.list path = .ok (files.children location) := by
  have outside := steady.outside confined found
  rw [list, steady.locate confined, found]
  simp only [bind, Except.bind, confined.agree.get? location outside, isDirectory]
  rfl

theorem tree_nil_of_list (listed : files.list path = .ok listing) :
    start.tree path [] = some .directory := by
  obtain ⟨location, found, isDirectory, _⟩ := steady.directory_of_list confined listed
  exact tree_eq_some_iff.2 (examine_of_locate found isDirectory)

/-- A listing has each name that was there before the work began. -/
theorem mem_list {location : Location} {name : Name}
    (listed : files.list path = .ok listing) (found : start.locate .target path = .ok location)
    (stands : (start.get? (location ++ [name])).isSome) : name ∈ listing := by
  obtain ⟨location', found', _, rfl⟩ := steady.directory_of_list confined listed
  obtain rfl : location = location' := Except.ok.inj (found.symm.trans found')
  rw [mem_children]
  by_cases within : root <+: location ++ [name]
  · -- The directory that is worked in is the only entry there that is within it.
    rcases List.prefix_concat_iff.1 within with same | below
    · rw [← same, confined.isDirectory]
      rfl
    · exact absurd below (steady.outside confined found)
  · rwa [confined.agree.get? _ within]

theorem mem_list_of_tree (nonempty : path.bytes ≠ []) {name : Name}
    (listed : files.list path = .ok listing)
    (stands : start.tree path (name :: names) = some entry) : name ∈ listing := by
  obtain ⟨location, found, _, standsBelow⟩ := locate_of_tree_cons nonempty stands
  exact steady.mem_list confined listed found standsBelow

end Steady

/-- A tree has come to be laid over what stood at and below a location. -/
structure Overlaid (tree : List Name → Option Entry) (location : Location)
    (files other : FileSystem) : Prop where
  workingDirectory : other.workingDirectory = files.workingDirectory
  supplied : ∀ names entry, tree names = some entry → other.get? (location ++ names) = some entry
  above : ∀ place, place <+: location → place ≠ location →
    other.get? place = some .directory ∧
      (files.get? place = none ∨ files.get? place = some .directory)
  elsewhere : ∀ place, ¬ place <+: location →
    (∀ names, place = location ++ names → tree names = none) → other.get? place = files.get? place
  stands : (tree []).isSome

namespace Overlaid

variable {location : Location} {tree : List Name → Option Entry}

theorem of_planted (planted : Planted location entry files other) (top : tree [] = some entry)
    (flat : ∀ name rest, tree (name :: rest) = none) : Overlaid tree location files other := by
  refine ⟨planted.workingDirectory, ?_, ?_, fun place outside _ => planted.elsewhere outside,
    by simp [top]⟩
  · intro names entry' stands
    cases names with
    | nil =>
      rw [List.append_nil, planted.at_location, ← stands, top]
    | cons name rest =>
      rw [flat] at stands
      cases stands
  · intro place isAbove differ
    refine ⟨?_, planted.above place isAbove differ⟩
    rw [planted.get?, if_neg differ, if_pos isAbove]

/-- What was made without the tree having it stands above the tree. -/
theorem above_of_made {place : Location} (laid : Overlaid tree location files other)
    (nothing : files.get? place = none) (made : other.get? place = some .directory)
    (notOfTree : ∀ names, place = location ++ names → tree names = none) : place <+: location := by
  by_contra outside
  rw [laid.elsewhere place outside notOfTree, nothing] at made
  cases made

end Overlaid

/-! ## One directory of a tree -/

/-- The parts of a tree that lie below some names have come to be laid over a directory. -/
structure Spread (tree : List Name → Option Entry) (location : Location) (spread : List Name)
    (files other : FileSystem) : Prop where
  workingDirectory : other.workingDirectory = files.workingDirectory
  supplied : ∀ name ∈ spread, ∀ rest entry, tree (name :: rest) = some entry →
    other.get? (location ++ name :: rest) = some entry
  elsewhere : ∀ place,
    (∀ name ∈ spread, ∀ rest, place = location ++ name :: rest → tree (name :: rest) = none) →
      other.get? place = files.get? place

namespace Spread

variable {location : Location} {tree : List Name → Option Entry} {spread : List Name} {name : Name}
  {third : FileSystem}

theorem nil (tree : List Name → Option Entry) (location : Location) (files : FileSystem) :
    Spread tree location [] files files :=
  ⟨rfl, fun _ member => (List.not_mem_nil member).elim, fun _ _ => rfl⟩

/-- One more name, whose part of the tree has come to be laid over what stood below it. -/
theorem step (isDirectory : files.get? location = some .directory)
    (before : Spread tree location spread files other)
    (laid : Overlaid (fun rest => tree (name :: rest)) (location ++ [name]) other third) :
    Spread tree location (spread ++ [name]) files third := by
  refine ⟨laid.workingDirectory.trans before.workingDirectory, ?_, ?_⟩
  · intro other' member rest entry stands
    by_cases same : other' = name
    · subst same
      have supplied := laid.supplied rest entry stands
      rwa [List.append_assoc] at supplied
    · have earlier : other' ∈ spread := by simpa [same] using member
      rw [laid.elsewhere, before.supplied other' earlier rest entry stands]
      · intro above
        have above := (List.prefix_append_right_inj location).1 above
        exact same (List.cons_prefix_cons.1 above).1
      · intro names clash
        rw [List.append_assoc] at clash
        exact absurd (List.cons.inj (List.append_cancel_left clash)).1 same
  · intro place outside
    have unchanged := before.elsewhere place fun name' member =>
      outside name' (List.mem_append_left _ member)
    by_cases within : place <+: location
    · have differ : place ≠ location ++ [name] := by
        rintro rfl
        exact absurd (eq_nil_of_above within) (List.cons_ne_nil _ _)
      have above : files.get? place = some .directory := by
        by_cases same : place = location
        · rw [same, isDirectory]
        · exact get?_ancestor within same (by rw [isDirectory]; rfl)
      rw [(laid.above place (within.trans (List.prefix_append _ _)) differ).1, above]
    · rw [laid.elsewhere, unchanged]
      · intro above
        rcases List.prefix_concat_iff.1 above with rfl | within'
        · have nothing := outside name (by simp) [] rfl
          have stands := laid.stands
          rw [nothing] at stands
          cases stands
        · exact within within'
      · rintro names rfl
        exact outside name (by simp) names (by simp)

/-- A tree is laid when its directory stands and all names in it have been seen to. -/
theorem overlaid (planted : Planted location .directory files other)
    (spreads : Spread tree location spread other third) (top : tree [] = some .directory)
    (complete : ∀ name rest entry, tree (name :: rest) = some entry → name ∈ spread) :
    Overlaid tree location files third := by
  have atOrAbove : ∀ place, place <+: location → third.get? place = other.get? place := by
    intro place within
    refine spreads.elsewhere place ?_
    rintro name _ rest rfl
    exact absurd (eq_nil_of_above within) (List.cons_ne_nil _ _)
  refine ⟨spreads.workingDirectory.trans planted.workingDirectory, ?_, ?_, ?_, by rw [top]; rfl⟩
  · intro names entry stands
    cases names with
    | nil =>
      rw [List.append_nil, atOrAbove _ List.prefix_rfl, planted.at_location, ← stands, top]
    | cons name rest =>
      exact spreads.supplied name (complete name rest entry stands) rest entry stands
  · intro place within differ
    refine ⟨?_, planted.above place within differ⟩
    rw [atOrAbove place within, planted.get?, if_neg differ, if_pos within]
  · intro place outside nothing
    rw [spreads.elsewhere place fun name _ rest same => nothing (name :: rest) same,
      planted.elsewhere outside]

end Spread

/-! ## A tree laid in part -/

/-- Some of a tree has come to be laid over what stood at a location: where anything has changed,
there is what the tree has at that place, or a new directory. -/
def PartLaid (tree : List Name → Option Entry) (location : Location)
    (files other : FileSystem) : Prop :=
  ∀ place, other.get? place = files.get? place ∨
    (∃ names entry, place = location ++ names ∧ tree names = some entry ∧
      other.get? place = some entry) ∨
    (files.get? place = none ∧ other.get? place = some .directory)

namespace PartLaid

variable {tree : List Name → Option Entry} {location place : Location} {third : FileSystem}

theorem refl (tree : List Name → Option Entry) (location : Location) (files : FileSystem) :
    PartLaid tree location files files :=
  fun _ => .inl rfl

theorem trans (first : PartLaid tree location files other)
    (second : PartLaid tree location other third) : PartLaid tree location files third := by
  intro place
  rcases second place with same | ofTree | ⟨nothing, made⟩
  · rw [same]
    exact first place
  · exact .inr (.inl ofTree)
  · rcases first place with same | ⟨_, _, _, _, stands⟩ | ⟨_, stands⟩
    · exact .inr (.inr ⟨same ▸ nothing, made⟩)
    · cases nothing.symm.trans stands
    · cases nothing.symm.trans stands

theorem of_paved {paving : Location} (paved : Paved paving files other) :
    PartLaid tree location files other := by
  intro place
  rcases paved.get? place with same | ⟨_, nothing, made⟩
  · exact .inl same
  · exact .inr (.inr ⟨nothing, made⟩)

theorem of_directory (planted : Planted location .directory files other) :
    PartLaid tree location files other :=
  of_paved planted.paved

theorem of_spread {spread : List Name} (spreads : Spread tree location spread files other) :
    PartLaid tree location files other := by
  intro place
  by_cases supplied : ∃ name ∈ spread, ∃ rest entry, place = location ++ name :: rest ∧
      tree (name :: rest) = some entry
  · obtain ⟨name, member, rest, entry, rfl, stands⟩ := supplied
    exact .inr (.inl ⟨_, entry, rfl, stands, spreads.supplied name member rest entry stands⟩)
  · refine .inl (spreads.elsewhere place fun name member rest same => ?_)
    by_contra some
    obtain ⟨entry, stands⟩ := Option.ne_none_iff_exists'.1 some
    exact supplied ⟨name, member, rest, entry, same, stands⟩

theorem of_overlaid (laid : Overlaid tree location files other) :
    PartLaid tree location files other := by
  intro place
  by_cases supplied : ∃ names entry, place = location ++ names ∧ tree names = some entry
  · obtain ⟨names, entry, rfl, stands⟩ := supplied
    exact .inr (.inl ⟨names, entry, rfl, stands, laid.supplied names entry stands⟩)
  · have notOfTree : ∀ names, place = location ++ names → tree names = none := by
      intro names same
      by_contra some
      obtain ⟨entry, stands⟩ := Option.ne_none_iff_exists'.1 some
      exact supplied ⟨names, entry, same, stands⟩
    by_cases above : place <+: location
    · have differ : place ≠ location := by
        rintro rfl
        have nothing := notOfTree [] (List.append_nil _).symm
        rw [← Option.not_isSome_iff_eq_none] at nothing
        exact nothing laid.stands
      obtain ⟨stands, nothing | isDirectory⟩ := laid.above place above differ
      · exact .inr (.inr ⟨nothing, stands⟩)
      · exact .inl (stands.trans isDirectory.symm)
    · exact .inl (laid.elsewhere place above notOfTree)

/-- Work on a part of a tree is work on the tree. -/
theorem of_part (front : List Name)
    (part : PartLaid (fun rest => tree (front ++ rest)) (location ++ front) files other) :
    PartLaid tree location files other := by
  intro place
  rcases part place with same | ⟨names, entry, isPlace, stands, laid⟩ | made
  · exact .inl same
  · exact .inr (.inl ⟨front ++ names, entry, by rw [isPlace, List.append_assoc], stands, laid⟩)
  · exact .inr (.inr made)

/-- A directory was made, some of its entries have been seen to and one more in part. -/
theorem of_entries {made : FileSystem} {seen : List Name} {name : Name}
    (planted : Planted location .directory files made)
    (spreads : Spread tree location seen made other)
    (part : PartLaid (fun rest => tree (name :: rest)) (location ++ [name]) other third) :
    PartLaid tree location files third :=
  ((of_directory planted).trans (of_spread spreads)).trans (of_part [name] part)

/-- What stands somewhere goes on to stand there, unless the tree has something else. -/
theorem still_stands (part : PartLaid tree location files other)
    (stands : files.get? place = some entry)
    (agrees : ∀ names entry', place = location ++ names → tree names = some entry' →
      entry' = entry) : other.get? place = some entry := by
  rcases part place with same | ⟨names, entry', isPlace, ofTree, laid⟩ | ⟨nothing, _⟩
  · rw [same, stands]
  · rw [laid, agrees names entry' isPlace ofTree]
  · cases nothing.symm.trans stands

end PartLaid

end FileSystem

end ImageStaging
