import ImageStaging.Proofs.Directories
import ImageStaging.Proofs.Layout
import ImageStaging.Proofs.TreeCopy.Bound
import ImageStaging.Proofs.TreeCopy.Census

/-!
# A copy is faithful

The place of a target is known before anything is made for it. If that place keeps clear of the
tree of the source, nothing that the copy does changes what is read of that tree, and so a copy that
succeeds has met all of it as it was and has laid it over what stood at the place.
-/

namespace ImageStaging

namespace FileSystem

variable {files other third : FileSystem} {source target : Path} {place location : Location}
  {names : List Name}

/-! ## Keeping clear -/

/-- The place of a target: that of its entry, or the directory that it reaches. -/
def PlaceOf (files : FileSystem) (target : Path) (place : Location) : Prop :=
  files.EntryAt target place ∨ files.Reaches target place

/-- None of two locations is at or below the other. -/
def Unrelated (first second : Location) : Prop :=
  ¬ first <+: second ∧ ¬ second <+: first

instance (first second : Location) : Decidable (Unrelated first second) :=
  inferInstanceAs (Decidable (_ ∧ _))

theorem Unrelated.append (unrelated : Unrelated location place) (names : List Name) :
    Unrelated (location ++ names) place := by
  refine ⟨fun above => unrelated.1 ((List.prefix_append _ _).trans above), fun below => ?_⟩
  rcases List.prefix_or_prefix_of_prefix below (List.prefix_append location names) with
    above | below
  · exact unrelated.2 above
  · exact unrelated.1 below

/-- No part of the tree of a source is at, above or below a place, and neither is what a path of the
tree misses where it leads nowhere. -/
structure Clear (files : FileSystem) (source : Path) (place : Location) : Prop where
  found : ∀ names location, files.locate .target (source.below names) = .ok location →
    Unrelated location place
  missing : ∀ names seen, checkPath (source.below names) = .ok () →
    seen ∈ files.trailOf (source.below names) → files.get? seen = none → Unrelated seen place

/-- Nothing is gone, and what is new or has changed is at, above or below a place. -/
structure Filled (place : Location) (files other : FileSystem) : Prop where
  retained : Retained files other
  elsewhere : ∀ seen, Unrelated seen place → other.get? seen = files.get? seen

namespace Filled

theorem trans (first : Filled place files other) (second : Filled place other third) :
    Filled place files third :=
  ⟨first.retained.trans second.retained, fun seen unrelated =>
    (second.elsewhere seen unrelated).trans (first.elsewhere seen unrelated)⟩

theorem of_paved (paved : Paved location files other) (above : location <+: place) :
    Filled place files other := by
  refine ⟨.of_paved paved, fun seen unrelated => (paved.get? seen).resolve_right ?_⟩
  rintro ⟨within, -⟩
  exact unrelated.1 (within.trans above)

theorem of_worked {start : FileSystem} {base : Path}
    (worked : Worked start base place [] files other) : Filled place files other := by
  refine ⟨worked.retained, fun seen unrelated => ?_⟩
  have touched := worked.touched
  rw [List.append_nil] at touched
  refine (touched seen unrelated.2).resolve_right ?_
  rintro ⟨within, -⟩
  exact unrelated.1 within

end Filled

namespace Clear

variable (clear : Clear files source place) (filled : Filled place files other)
include clear filled

/-- Whatever is done at the place, the paths of the tree lead where they led. -/
theorem locate_eq (names : List Name) :
    other.locate .target (source.below names) = files.locate .target (source.below names) := by
  cases checked : checkPath (source.below names) with
  | error fault =>
    rw [locate_of_checkPath other .target checked, locate_of_checkPath files .target checked]
  | ok =>
    rw [locate, locate, resolve_congr filled.retained.workingDirectory]
    intro seen member
    cases stands : files.get? seen with
    | none =>
      have unrelated := clear.missing names seen checked (List.mem_cons_of_mem _ member) stands
      exact sameKind_of_eq (filled.elsewhere seen unrelated)
    | some entry =>
      obtain ⟨later, standsThen, kept⟩ := filled.retained.get? seen entry stands
      rw [SameKind, stands, standsThen]
      exact .some kept

theorem get?_eq (found : files.locate .target (source.below names) = .ok location) :
    other.get? location = files.get? location :=
  filled.elsewhere location (clear.found names location found)

theorem tree_eq : other.tree source = files.tree source := by
  refine funext fun names => ?_
  rw [tree, tree, examine, examine, clear.locate_eq filled]
  cases found : files.locate .target (source.below names) with
  | error fault => rfl
  | ok location => simp only [bind, Except.bind, clear.get?_eq filled found]

omit filled in
/-- Once the place is a directory, the tree stays as it is while the copy goes on there. -/
theorem steadyTree {base : Path} (made : Filled place files other) :
    TreeCopy.SteadyTree other base place other source := by
  intro names third worked
  rw [clear.locate_eq made, clear.locate_eq (made.trans (.of_worked worked))]
  exact ⟨rfl, fun location found => (clear.found names location found).2⟩

end Clear

/-- A directory without links keeps clear of whatever it has nothing to do with. -/
theorem Clear.of_plain (comes : files.Comes source location)
    (isDirectory : files.get? location = some .directory) (plain : files.Plain location)
    (unrelated : Unrelated location place) : Clear files source place := by
  refine ⟨fun names location' found => ?_, fun names seen _ member nothing => ?_⟩
  · obtain ⟨used, few, walk⟩ := leads_of_locate found
    obtain ⟨_, _, first⟩ := comes
    rw [Path.startOf_below, Path.moves_below] at walk
    obtain ⟨_, _, further⟩ := first.split walk
    rcases further.of_plain isDirectory plain with ⟨same, -⟩ | ⟨_, _, _, impossible, -⟩
    · rw [Found.present.inj same]
      exact unrelated.append names
    · cases impossible
  · obtain ⟨left, trail⟩ := comes.leads.trailOf_append isDirectory
      (Path.startOf_below files source names) (Path.moves_below source names)
    rw [trail, trailOf_eq, List.cons_append] at member
    rcases List.mem_cons.1 member with rfl | member
    · obtain ⟨_, _, walk⟩ := comes
      cases nothing.symm.trans (walk.climb_isDirectory isDirectory)
    · rcases List.mem_append.1 member with earlier | later
      · obtain ⟨used, few, walk⟩ := comes
        rcases walk.passes few seen earlier with stands | ⟨_, stands⟩ <;>
          cases nothing.symm.trans stands
      · obtain ⟨names, rfl⟩ := plain.prefix_of_mem_trail names seen later
        exact unrelated.append names

end FileSystem

namespace TreeCopy

open FileSystem (Clear Confined Filled Overlaid PlaceOf Planted Straight checkPath pathLimit)

variable {files other : FileSystem} {source target : Path} {place : Location} {count : Nat}
  {world : World}

theorem TrapAt.of_filled {front : List Name} {name : Name} (clear : Clear files source place)
    (filled : Filled place files other) (trap : TrapAt files source front name) :
    TrapAt other source front name := by
  obtain ⟨location, target, found, isLink, leads⟩ := trap
  refine ⟨location, target, (clear.locate_eq filled front).trans found,
    filled.retained.get?_of_not_file isLink rfl, ?_⟩
  rcases leads with ⟨fault, failed⟩ | ⟨directory, above, leads, isDirectory, within, itself⟩
  · exact .inl ⟨fault, (clear.locate_eq filled _).trans failed⟩
  · exact .inr ⟨directory, above, (clear.locate_eq filled _).trans leads,
      filled.retained.get?_of_not_file isDirectory rfl, within,
      (clear.locate_eq filled _).trans itself⟩

/-- What a walk has met there was there before. -/
theorem Met.of_filled (clear : Clear files source place) (filled : Filled place files other)
    (met : Met other source [] count) : Met files source [] count := by
  have same : other.tree (source.below []) = files.tree (source.below []) := clear.tree_eq filled
  obtain ⟨location, found⟩ := met.found
  refine ⟨⟨location, (clear.locate_eq filled []).symm.trans found⟩, ?_, ?_, ?_⟩
  · rw [← same]
    exact met.kinds
  · rw [← same]
    exact met.counted
  · intro front name within trap
    exact met.free front name within (trap.of_filled clear filled)

/-! ## Copying a file -/

/-- Once the directory above a target has been made, a file can be written at the entry of the
target only, and is written there if nothing or a file is. -/
theorem entryAt_of_writable {above : Path} {directory location : Location} {made : FileSystem}
    {entry : Option Entry} (plain : ∀ place, files.EntryAt target place → files.Plain place)
    (parent : target.parent? = some above) (reaches : files.Reaches above directory)
    (planted : Planted directory .directory files made) (comes : made.Comes above directory)
    (found : made.writable target = .ok (location, entry)) :
    directory <+: location ∧ files.EntryAt target location ∧ made.Accepts location ∧
      entry ≠ some .fullDevice := by
  obtain ⟨above', name, directory', parent', moves, comes', -, stands⟩ :=
    FileSystem.writable_parent found
  obtain rfl := Option.some.inj (parent.symm.trans parent')
  obtain rfl := comes.unique comes'
  have entryAt : files.EntryAt target (directory ++ [name]) :=
    ⟨above, name, directory, parent, moves, reaches, rfl⟩
  have same : made.get? (directory ++ [name]) = files.get? (directory ++ [name]) :=
    planted.elsewhere fun within =>
      absurd (FileSystem.eq_nil_of_above within) (List.cons_ne_nil name [])
  have kinds : ∀ entry, made.get? (directory ++ [name]) = some entry →
      entry = .directory ∨ entry.isFile = true := fun entry stands =>
    plain _ entryAt [] entry (by rw [List.append_nil, ← same, stands])
  rcases stands with ⟨link, isLink⟩ | ⟨rfl, rfl, notDirectory⟩
  · rcases kinds _ isLink with impossible | impossible <;> cases impossible
  · refine ⟨List.prefix_append _ _, entryAt, ⟨by simp, ?_, notDirectory⟩, fun isDevice => ?_⟩
    · rw [List.dropLast_concat]
      exact planted.at_location
    · rcases kinds _ isDevice with impossible | impossible <;> cases impossible

/-- A file that keeps clear of a place is met as it was when it is copied there. -/
theorem met_of_copied {made : FileSystem} {content : Bytes} {executable : Bool} {location : Location}
    (nonempty : source.bytes ≠ []) (clear : Clear files source place)
    (filled : Filled place files made) (located : made.locate .target source = .ok location)
    (faithful : location ≠ place → made.get? location = some (.file content executable))
    (planted : Planted place (.file content executable) files other) :
    Met files source [] 1 ∧ Overlaid (files.tree source) place files other := by
  have found : files.locate .target source = .ok location :=
    (clear.locate_eq filled []).symm.trans located
  have differ : location ≠ place := by
    rintro rfl
    exact (clear.found [] _ found).1 List.prefix_rfl
  have isFile := faithful differ
  rw [@Clear.get?_eq _ _ _ _ _ [] clear filled found] at isFile
  have examined := FileSystem.examine_of_locate found isFile
  exact ⟨.of_file nonempty examined, .of_planted planted (FileSystem.tree_eq_some_iff.2 examined)
    fun name rest => FileSystem.tree_of_not_directory nonempty examined (by simp) rest⟩

theorem copyFile_faithful (nonempty : source.bytes ≠ [])
    (straight : Straight world.files target)
    (plain : ∀ place, world.files.EntryAt target place → world.files.Plain place)
    (clear : ∀ place, world.files.EntryAt target place → Clear world.files source place) :
    (copyFile source target).Ends world
      (fun _ after => ∃ place, world.files.EntryAt target place ∧ Met world.files source [] 1 ∧
        Overlaid (world.files.tree source) place world.files after.files)
      (fun _ _ => True) := by
  rw [copyFile_eq, Action.ends_bind]
  unfold makeParent
  cases parent : target.parent? with
  | none =>
    -- Nothing can be written where there is no parent.
    simp only [Action.ends_pure, Action.ends_bind, Action.ends_blaming, Action.ends_note]
    have unwritable : ∀ location entry, world.files.writable target ≠ .ok (location, entry) := by
      intro location entry found
      obtain ⟨above, _, _, parent', -⟩ := FileSystem.writable_parent found
      cases parent.symm.trans parent'
    refine (Files.copy_places source fun location entry found =>
      absurd found (unwritable location entry)).mono ?_ fun _ _ _ => trivial
    rintro _ after ⟨location, entry, _, _, _, found, -⟩
    exact absurd found (unwritable location entry)
  | some above =>
    simp only [Action.ends_bind, Action.ends_blaming, Action.ends_note]
    refine (Files.makeDirectories_reaches (straight.parent parent)).mono ?_ fun _ _ _ => trivial
    rintro _ middle ⟨-, directory, reaches, comes, made⟩
    -- Nothing can be written in a working directory that was taken away.
    have planted : ∀ location entry, middle.files.writable target = .ok (location, entry) →
        Planted directory .directory world.files middle.files := by
      intro location entry found
      obtain ⟨above', _, directory', parent', -, comes', isDirectory, -⟩ :=
        FileSystem.writable_parent found
      obtain rfl := Option.some.inj (parent.symm.trans parent')
      obtain rfl := comes.unique comes'
      refine made.resolve_right ?_
      rintro ⟨rfl, gone⟩
      exact gone isDirectory
    refine (Files.copy_places source fun location entry found =>
      (entryAt_of_writable plain parent reaches (planted _ _ found) comes found).2.2).mono ?_
        fun _ _ _ => trivial
    rintro _ after ⟨place, entry, content, executable, location, found, copied, located, faithful⟩
    have planted := planted _ _ found
    obtain ⟨above, entryAt, -⟩ := entryAt_of_writable plain parent reaches planted comes found
    obtain ⟨name, rfl⟩ := above
    exact ⟨_, entryAt, met_of_copied nonempty (clear _ entryAt)
      (.of_paved planted.paved (List.prefix_append _ _)) located faithful (planted.trans copied)⟩

/-! ## Copying a directory -/

/-- A place can be worked in from a directory that has come to stand there. -/
theorem exists_confined {planted : FileSystem} (plain : files.Plain place)
    (made : Planted place .directory files planted) (comes : planted.Comes target place)
    (checked : (target.join ⟨[]⟩).bytes ≠ [] → checkPath (target.join ⟨[]⟩) = .ok ()) :
    ∃ base, Path.Descends base [] target ∧ Confined planted base place planted := by
  have plainThen : planted.Plain place := by
    intro names entry stands
    by_cases here : names = []
    · rw [here, List.append_nil, made.at_location] at stands
      exact .inl (Option.some.inj stands).symm
    · rw [made.elsewhere fun within => here (FileSystem.eq_nil_of_above within)] at stands
      exact plain names entry stands
  have usable : ∀ base, Path.Descends base [] target → checkPath base = .ok () →
      Confined planted base place planted := by
    intro base descends checked
    have moves : base.moves = target.moves := by rw [descends.moves, List.map_nil, List.append_nil]
    have leads := (comes.of_moves descends.isAbsolute.symm moves).leads
    exact .of_plain (leads.locate_directory made.at_location checked) made.at_location plainThen
  by_cases empty : target.bytes = []
  · -- The empty path stands for the working directory, which can also be looked up.
    have descends : Path.Descends (Path.ofString ".") [] target := by
      refine ⟨?_, ?_⟩
      · rw [Path.isAbsolute, empty]
        decide
      · exact Path.moves_of_empty empty
    exact ⟨_, descends, usable _ descends (by decide)⟩
  · have isPrefix : target.bytes <+: (target.join ⟨[]⟩).bytes := Path.prefix_join rfl
    have nonempty : (target.join ⟨[]⟩).bytes ≠ [] := fun none =>
      empty (List.prefix_nil.1 (none ▸ isPrefix))
    exact ⟨_, .refl target, usable _ (.refl target)
      (FileSystem.checkPath_of_prefix isPrefix empty (checked nonempty))⟩

/-- The entries of the source, once the directory for them has been made. -/
theorem entries_faithful {base : Path} {location : Location} {made : World}
    (nonempty : source.bytes ≠ []) (depth : Nat)
    (located : files.locate .target source = .ok location)
    (isDirectory : files.get? location = some .directory)
    (planted : Planted place .directory files made.files) (clear : Clear files source place)
    (confined : Confined made.files base place made.files)
    (descends : Path.Descends base [] target) :
    (((files.children location).mergeSort Name.le).foldlM
        (copyEntry source target depth [] source ⟨[]⟩ location) 0).Ends made
      (fun count after => Met files source [] count ∧
        Overlaid (files.tree source) place files after.files) (fun _ _ => True) := by
  have filled : Filled place files made.files := .of_paved planted.paved List.prefix_rfl
  have steady : SteadyTree made.files base place made.files source := clear.steadyTree filled
  have unrelated := clear.found [] location located
  have found : made.files.locate .target (source.below []) = .ok location :=
    (clear.locate_eq filled []).trans located
  have isDirectoryThen : made.files.get? location = some .directory :=
    (filled.elsewhere location unrelated).trans isDirectory
  have complete : ∀ name, (made.files.get? (location ++ [name])).isSome →
      name ∈ (files.children location).mergeSort Name.le := by
    intro name stands
    rw [filled.elsewhere _ (unrelated.append [name])] at stands
    exact List.mem_mergeSort.2 (FileSystem.mem_children.2 stands)
  have noMoves : (⟨[]⟩ : Path).moves = ([] : List Name).map .enter := rfl
  have proper : ∀ name : Name, [] ++ [name] ≠ [] := fun name => List.cons_ne_nil name []
  have covers : Covers made.files source [] [] := fun _ _ within differ =>
    absurd (List.prefix_nil.1 within) differ
  have standing : Planted (place ++ ([] ++ [])) .directory made.files made.files :=
    .of_standing (by simpa using planted.at_location)
  have lays := entries_ends ((files.children location).mergeSort Name.le) standing
    (confined.worked ([] ++ [])) fun name middle confinedThen =>
    visit_ends nonempty descends depth [⟨source.below [], location⟩] (proper name)
      (relative_join rfl noMoves name).1 (relative_join rfl noMoves name).2
      ((middle.files.get? (location ++ [name])).getD .directory) confinedThen
  have nodup := nodup_sorted_children files location
  have meets := entries_meet planted.at_location _ nodup steady found covers
    (confined.worked ([] ++ [])) fun name middle worked =>
      visit_meets planted.at_location nonempty descends depth [⟨source.below [], location⟩]
        (proper name) (relative_join rfl noMoves name).1 (relative_join rfl noMoves name).2
        ((middle.files.get? (location ++ [name])).getD .directory) worked.confined
        (steady.later worked) (covers.step found source name)
  refine (lays.and meets).mono ?_ fun _ _ _ => trivial
  rintro count after ⟨⟨-, spread⟩, -, metEach⟩
  have spread := spread steady
  rw [List.append_nil, List.append_nil] at spread
  have laid := spread.overlaid planted
    (FileSystem.tree_eq_some_iff.2 (FileSystem.examine_of_locate found isDirectoryThen))
    fun name rest entry stands => by
      obtain ⟨location', found', -, standsBelow⟩ := FileSystem.locate_of_tree_cons nonempty stands
      obtain rfl := Except.ok.inj (found.symm.trans found')
      exact complete name standsBelow
  refine ⟨(metEach.met nonempty found isDirectoryThen complete).of_filled clear filled, ?_⟩
  rwa [Path.below_nil, clear.tree_eq filled] at laid

/-- The first step of a walk, at the source itself. -/
theorem visit_faithful (nonempty : source.bytes ≠ []) (depth : Nat) (entry : Entry)
    (stands : ∀ place, world.files.Comes target place → world.files.get? place = some .directory)
    (straight : Straight world.files target)
    (plain : ∀ place, PlaceOf world.files target place → world.files.Plain place)
    (clear : ∀ place, PlaceOf world.files target place → Clear world.files source place) :
    (visit source target depth [] source ⟨[]⟩ entry).Ends world
      (fun count after => ∃ place, PlaceOf world.files target place ∧
        Met world.files source [] count ∧
        Overlaid (world.files.tree source) place world.files after.files)
      (fun _ _ => True) := by
  cases depth with
  | zero => trivial
  | succ depth =>
    have isAbsolute : (target.join ⟨[]⟩).isAbsolute = target.isAbsolute := Path.isAbsolute_join rfl
    have moves : (target.join ⟨[]⟩).moves = target.moves :=
      (Path.moves_join rfl).trans (List.append_nil _)
    have straightThere : Straight world.files (target.join ⟨[]⟩) :=
      straight.front isAbsolute (by rw [moves, List.append_nil])
    unfold visit
    simp only [Action.ends_bind, Action.ends_blaming]
    refine (follow_ends [] source entry).mono ?_ fun _ _ _ => trivial
    rintro found world rfl
    split
    · simp only [Action.ends_bind, ends_openDirectory, Action.ends_blaming]
      refine ⟨fun location listing located listed => ?_,
        fun _ _ => .of_forall (fun _ _ => trivial) fun _ _ => trivial⟩
      obtain ⟨location', located', isDirectory, rfl⟩ := FileSystem.list_ok listed
      obtain rfl := Except.ok.inj (located.symm.trans located')
      refine ((Files.makeDirectories_reaches straightThere).and
        (Files.makeDirectories_checked _ _)).mono ?_ fun _ _ _ => trivial
      rintro _ made ⟨⟨-, place, reaches, comes, planted⟩, checked⟩
      have planted : Planted place .directory world.files made.files := by
        refine planted.resolve_right ?_
        rintro ⟨rfl, gone⟩
        exact gone (stands place (comes.of_moves isAbsolute.symm moves.symm))
      have placeOf : PlaceOf world.files target place :=
        .inr (reaches.of_moves isAbsolute.symm moves.symm)
      have clear := clear place placeOf
      obtain ⟨base, descends, confined⟩ := exists_confined (plain place placeOf) planted
        (comes.of_moves isAbsolute.symm moves.symm) checked
      refine (entries_faithful nonempty depth located isDirectory planted clear confined
        descends).mono (fun count after copied => ⟨place, placeOf, copied⟩) fun _ _ _ => trivial
    · simp only [Action.ends_bind, Action.ends_pure]
      have entryAt : ∀ place, world.files.EntryAt (target.join ⟨[]⟩) place →
          PlaceOf world.files target place := by
        rintro place ⟨above, name, directory, parent, split, reaches, rfl⟩
        obtain ⟨isAbsolute', -⟩ := Path.moves_parent? parent
        exact .inl (.of_reaches (isAbsolute'.trans isAbsolute) (moves.symm.trans split) reaches)
      refine (copyFile_faithful nonempty straightThere
        (fun place at' => plain place (entryAt place at'))
        fun place at' => clear place (entryAt place at')).mono ?_ fun _ _ _ => trivial
      rintro _ after ⟨place, at', copied⟩
      exact ⟨place, entryAt place at', copied⟩

/-! ## The whole copy -/

/-- The tree of a source has come to be laid over a place, and so many files with it. -/
structure Copied (files : FileSystem) (source : Path) (place : Location) (count : Nat)
    (other : FileSystem) : Prop where
  laid : Overlaid (files.tree source) place files other
  kinds : ∀ names entry, files.tree source names = some entry →
    entry = .directory ∨ entry.isFile = true
  counted : (filesOf (files.tree source)).encard = count
  links : ∀ seen target, other.get? seen = some (.link target) →
    files.get? seen = some (.link target)

theorem Copied.of_met (met : Met files source [] count)
    (laid : Overlaid (files.tree source) place files other) :
    Copied files source place count other := by
  refine ⟨laid, met.kinds, met.counted, fun seen target isLink => ?_⟩
  by_cases ofTree : ∃ names entry, seen = place ++ names ∧ files.tree source names = some entry
  · obtain ⟨names, entry, rfl, stands⟩ := ofTree
    obtain rfl := Option.some.inj ((laid.supplied names entry stands).symm.trans isLink)
    rcases met.kinds names _ stands with impossible | impossible <;> cases impossible
  · have nothing : ∀ names, seen = place ++ names → files.tree source names = none := by
      intro names same
      by_contra stands
      obtain ⟨entry, stands⟩ := Option.ne_none_iff_exists'.1 stands
      exact ofTree ⟨names, entry, same, stands⟩
    by_cases above : seen <+: place
    · have differ : seen ≠ place := by
        rintro rfl
        have stands := laid.stands
        rw [nothing [] (List.append_nil seen).symm] at stands
        cases stands
      cases (laid.above seen above differ).1.symm.trans isLink
    · rw [← laid.elsewhere seen above nothing, isLink]

theorem copy_ends_faithful
    (stands : ∀ place, world.files.Comes target place → world.files.get? place = some .directory)
    (straight : Straight world.files target)
    (plain : ∀ place, PlaceOf world.files target place → world.files.Plain place)
    (clear : ∀ entry place, world.files.examine source = .ok entry →
      PlaceOf world.files target place → Clear world.files source place) :
    (copy source target).Ends world
      (fun count after => ∃ place, PlaceOf world.files target place ∧
        Met world.files source [] count ∧
        Overlaid (world.files.tree source) place world.files after.files)
      (fun _ _ => True) := by
  unfold copy
  simp only [Action.ends_bind, Action.ends_blaming, Action.ends_look]
  refine ⟨fun entry examined => ?_, fun _ _ => trivial⟩
  obtain ⟨location, located, -⟩ := FileSystem.leads_of_examine examined
  have nonempty := FileSystem.nonempty_of_locate located
  split
  · simp only [Action.ends_bind, Action.ends_pure]
    refine (copyFile_faithful nonempty straight (fun place entryAt => plain place (.inl entryAt))
      fun place entryAt => clear entry place examined (.inl entryAt)).mono ?_ fun _ _ _ => trivial
    rintro _ after ⟨place, entryAt, copied⟩
    exact ⟨place, .inl entryAt, copied⟩
  · simp only [Action.ends_bind, Action.ends_blaming, Action.ends_look]
    exact ⟨fun entry _ => visit_faithful nonempty _ entry stands straight plain fun place placeOf =>
      clear _ place examined placeOf, fun _ _ => trivial⟩

/-- A copy to a place without links that keeps clear of the tree of the source, for a target that
does not turn back once it has run out. If it succeeds, it has counted the files of the tree and
laid it over the place; a trap in the tree makes it fail; and how deep it may go does not matter.
If the target leads to a directory, that directory is there; only a working directory that was taken
away is not. -/
theorem copy_faithful (source target : Path) (world : World)
    (stands : ∀ place, world.files.Comes target place → world.files.get? place = some .directory)
    (straight : Straight world.files target)
    (plain : ∀ place, PlaceOf world.files target place → world.files.Plain place)
    (clear : ∀ entry place, world.files.examine source = .ok entry →
      PlaceOf world.files target place → Clear world.files source place) :
    (copy source target).Ends world
      (fun count after => ∃ place, PlaceOf world.files target place ∧
        Copied world.files source place count after.files) (fun _ _ => True) ∧
    (∀ front name, TrapAt world.files source front name →
      ∃ fault after, (copy source target).run.run world = (.error fault, after)) ∧
    ∀ depth, pathLimit < depth → copyWithin depth source target = copy source target := by
  have ends := copy_ends_faithful stands straight plain clear
  refine ⟨?_, fun front name trap => ?_, fun depth enough => copyWithin_eq_copy source target enough⟩
  · refine ends.mono ?_ fun _ _ _ => trivial
    rintro count after ⟨place, placeOf, met, laid⟩
    exact ⟨place, placeOf, .of_met met laid⟩
  · rcases ends.ending with ⟨count, after, run, place, -, met, -⟩ | ⟨fault, after, run, -⟩
    · exact absurd trap (met.free front name List.nil_prefix)
    · exact ⟨fault, after, run⟩

/-- An empty directory can be copied to a working directory that was taken away, and then nothing
stands there. -/
example :
    let files := (FileSystem.emptyAt [Layout.nameOf "w"]).place [Layout.nameOf "s"] .directory
    ((copy (Path.ofString "/s") (Path.ofString ".")).run.run { files }).1.toOption = some 0 := by
  decide +kernel

/-- A directory beside another one that it is to be laid over. -/
def mergeFiles : FileSystem where
  entries := [
    ([Layout.nameOf "s"], .directory),
    ([Layout.nameOf "s", Layout.nameOf "bin"], .directory),
    ([Layout.nameOf "s", Layout.nameOf "bin", Layout.nameOf "run"], .file [1] true),
    ([Layout.nameOf "t"], .directory),
    ([Layout.nameOf "t", Layout.nameOf "bin"], .directory),
    ([Layout.nameOf "t", Layout.nameOf "bin", Layout.nameOf "run"], .file [2] false),
    ([Layout.nameOf "t", Layout.nameOf "bin", Layout.nameOf "stop"], .file [3] false)]
  distinct := by decide
  rooted := by
    simp only [FileSystem.Rooted, FileSystem.find]
    decide

/-- One file is written over another, and the one beside it stays. -/
theorem copy_faithful_merge : ∃ after,
    (copy (Path.ofString "/s") (Path.ofString "/t")).run.run { files := mergeFiles } =
        (.ok 1, after) ∧
      after.files.get? [Layout.nameOf "t", Layout.nameOf "bin", Layout.nameOf "run"] =
        some (.file [1] true) ∧
      after.files.get? [Layout.nameOf "t", Layout.nameOf "bin", Layout.nameOf "stop"] =
        some (.file [3] false) := by
  have succeeds : ((copy (Path.ofString "/s") (Path.ofString "/t")).run.run
      { files := mergeFiles }).1.toOption = some 1 := by decide +kernel
  have located : mergeFiles.locate .target (Path.ofString "/s") = .ok [Layout.nameOf "s"] ∧
      mergeFiles.locate .target (Path.ofString "/t") = .ok [Layout.nameOf "t"] := by decide
  have isDirectory : mergeFiles.get? [Layout.nameOf "s"] = some .directory ∧
      mergeFiles.get? [Layout.nameOf "t"] = some .directory := by decide
  have plain : mergeFiles.Plain [Layout.nameOf "s"] ∧ mergeFiles.Plain [Layout.nameOf "t"] :=
    ⟨FileSystem.plain_of_entries (by decide), FileSystem.plain_of_entries (by decide)⟩
  have tree : mergeFiles.tree (Path.ofString "/s") [Layout.nameOf "bin", Layout.nameOf "run"] =
        some (.file [1] true) ∧
      mergeFiles.tree (Path.ofString "/s") [Layout.nameOf "bin", Layout.nameOf "stop"] = none := by
    decide +kernel
  have stop : mergeFiles.get? [Layout.nameOf "t", Layout.nameOf "bin", Layout.nameOf "stop"] =
      some (.file [3] false) := by decide
  have parent : (Path.ofString "/t").parent? = some (Path.ofString "/") := by decide
  -- What else stands there does not matter from here on.
  generalize mergeFiles = files at succeeds located isDirectory plain tree stop ⊢
  have comes : files.Comes (Path.ofString "/t") [Layout.nameOf "t"] :=
    (FileSystem.leads_of_locate located.2).comes isDirectory.2
  have comesParent : files.Comes (Path.ofString "/") [] := ⟨0, Nat.zero_le _, .arrive⟩
  have only : ∀ place, PlaceOf files (Path.ofString "/t") place → place = [Layout.nameOf "t"] := by
    rintro place (entryAt | reaches)
    · have isAbsolute : (Path.ofString "/").isAbsolute = (Path.ofString "/t").isAbsolute := rfl
      exact entryAt.eq isAbsolute rfl (.there comesParent)
    · exact reaches.unique (.there comes)
  have run := Action.run_eq_of_toOption succeeds
  have ends := copy_faithful (Path.ofString "/s") (Path.ofString "/t") { files }
    (fun place comes' => comes.unique comes' ▸ isDirectory.2)
    (FileSystem.straight_of_locate located.2) (fun place isPlace => only place isPlace ▸ plain.2)
    fun entry place _ isPlace => by
      rw [only place isPlace]
      exact .of_plain ((FileSystem.leads_of_locate located.1).comes isDirectory.1) isDirectory.1
        plain.1 (by decide)
  obtain ⟨place, isPlace, copied⟩ := ends.1.of_ok run
  rw [only place isPlace] at copied
  refine ⟨_, run, copied.laid.supplied _ _ tree.1, ?_⟩
  rw [copied.laid.elsewhere _ (by decide), stop]
  intro names same
  obtain rfl := (List.cons.inj same).2
  exact tree.2

/-- A directory with a link that leads nowhere. -/
def danglingFiles : FileSystem where
  entries := [
    ([Layout.nameOf "s"], .directory),
    ([Layout.nameOf "s", Layout.nameOf "l"], .link (Path.ofString "../t"))]
  distinct := by decide
  rooted := by
    simp only [FileSystem.Rooted, FileSystem.find]
    decide

/-- A link that leads nowhere is no trap if the copy makes what it leads to, and a target that turns
back past a missing directory has that directory in it afterwards. -/
theorem copy_making_way :
    (∃ after, TrapAt danglingFiles (Path.ofString "/s") [] (Layout.nameOf "l") ∧
      (copy (Path.ofString "/s") (Path.ofString "/t")).run.run { files := danglingFiles } =
        (.ok 0, after)) ∧
    ∃ after, (copy (Path.ofString "/s") (Path.ofString "/t/new/..")).run.run
        { files := mergeFiles } = (.ok 1, after) ∧
      mergeFiles.get? [Layout.nameOf "t", Layout.nameOf "new"] = none ∧
      after.files.get? [Layout.nameOf "t", Layout.nameOf "new"] = some .directory := by
  refine ⟨⟨_, ?_, Action.run_eq_of_toOption ?_⟩, _, Action.run_eq_of_toOption ?_, ?_, ?_⟩
  · refine ⟨[Layout.nameOf "s"], Path.ofString "../t", ?_, ?_, .inl ⟨.notFound, ?_⟩⟩
    all_goals decide +kernel
  all_goals decide +kernel

end TreeCopy

end ImageStaging
