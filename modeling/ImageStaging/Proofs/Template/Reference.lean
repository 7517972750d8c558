import ImageStaging.Proofs.FileSystem.Tree
import ImageStaging.Template.Resolution

/-!
# What a file reference brings

A reference names a path, the first library that holds the path is searched for, and the tree at
the path in that library is what the reference brings to the same place of the context. Two
references that bring something to one place take it from one library: had either library come
earlier, it would have been found to hold the path of the other reference too.
-/

namespace ImageStaging

namespace FileSystem

variable {files : FileSystem} {path other : Path} {found : Found} {location : Location}
  {entry : Entry} {region : Location}

/-- A walk passes no step that no entry can take. -/
theorem Walks.impossible_notMem {strict : Bool} {used : Nat} {here : Location}
    {ahead : List PathStep} (walk : Walks files strict used here ahead found) :
    PathStep.impossible ∉ ahead := by
  induction walk with
  | arrive => simp
  | up _ ih => simpa using ih
  | enter _ _ ih => simpa using ih
  | other => simp
  | missing => simp
  | link _ _ ih =>
    rw [List.mem_append, not_or] at ih
    simpa using ih.2

theorem Leads.of_same (leads : files.Leads path found)
    (isAbsolute : other.isAbsolute = path.isAbsolute) (moves : other.moves = path.moves) :
    files.Leads other found := by
  obtain ⟨used, few, walk⟩ := leads
  refine ⟨used, few, ?_⟩
  rwa [startOf, isAbsolute, moves]

theorem Avoids.of_same (avoids : files.Avoids region path)
    (isAbsolute : other.isAbsolute = path.isAbsolute) (moves : other.moves = path.moves) :
    files.Avoids region other := by
  have sameTrail : files.trailOf other = files.trailOf path := by
    rw [trailOf_eq, trailOf_eq, startOf, startOf, isAbsolute, moves]
  rw [Avoids, sameTrail]
  exact avoids

theorem leads_of_tree {names : List Name} (stands : files.tree path names = some entry) :
    ∃ location, files.Leads (path.below names) (.present location) ∧
      (files.get? location).getD .directory = entry := by
  obtain ⟨location, found, same⟩ := leads_of_examine (tree_eq_some_iff.1 stands)
  exact ⟨location, leads_of_locate found, same⟩

end FileSystem

namespace Template

open FileSystem (Found)

/-- The first library that holds a path. -/
def FirstHolder (files : FileSystem) (libraries : List Path) (path library : Path) : Prop :=
  ∃ before after, libraries = before ++ library :: after ∧
    (∀ earlier ∈ before, files.exists? (earlier.join path) = .ok false) ∧
    files.exists? (library.join path) = .ok true

/-- How the search for the first library that holds a path ends, if it is made in some files: with
that library, with the last library, or with the first one in which the path cannot be looked up. -/
inductive SearchEnds (files : FileSystem) (libraries : List Path) (path : Path) :
    Except StagingFault (Option Path) → Prop
  | holds {library : Path} (holder : FirstHolder files libraries path library) :
    SearchEnds files libraries path (.ok (some library))
  | missing (nowhere : ∀ library ∈ libraries, files.exists? (library.join path) = .ok false) :
    SearchEnds files libraries path (.ok none)
  | stops {before after : List Path} {library : Path} {fault : FileFault}
    (split : libraries = before ++ library :: after)
    (earlier : ∀ candidate ∈ before, files.exists? (candidate.join path) = .ok false)
    (fails : files.exists? (library.join path) = .error fault) :
    SearchEnds files libraries path (.error (.inspect (library.join path) fault))

/-- A reference brings an entry to a place in the context. -/
def Brings (files : FileSystem) (libraries : List Path) (inner : Text) (place : List Name)
    (entry : Entry) : Prop :=
  ∃ path library front rest, containedPath? (sharedPath inner) = some path ∧
    FirstHolder files libraries path library ∧ path.moves = front.map .enter ∧
    place = front ++ rest ∧ files.tree (library.join path) rest = some entry

variable {files : FileSystem} {libraries : List Path} {path library : Path} {text : Text}

/-- A path that stays inside a library asks for something there and never goes up. -/
theorem contained_moves (contained : containedPath? text = some path) :
    path.isAbsolute = false ∧ PathStep.up ∉ path.moves ∧ path.moves ≠ [] := by
  simp only [containedPath?] at contained
  split at contained
  · cases contained
  · next stays =>
    split at contained
    · next proper =>
      obtain rfl := Option.some.inj contained
      generalize Path.ofText text = path at *
      simp only [List.any_eq_true, Bool.or_eq_true, decide_eq_true_eq, not_exists, not_and,
        not_or] at stays proper
      have relative : path.isAbsolute = false := by
        cases isAbsolute : path.isAbsolute with
        | false => rfl
        | true => exact absurd rfl (stays .root (by simp [Path.components, isAbsolute])).1
      refine ⟨relative, ?_, ?_⟩
      · intro asksUp
        exact (stays _ (Path.parent_mem_components asksUp)).2 rfl
      · obtain ⟨part, member, notCurrent⟩ := proper
        exact Path.moves_ne_nil_of_component relative member notCurrent
    · cases contained

/-- Moves that do not go up are names, up to an impossible one if there is any. -/
theorem names_before {path : Path} (noUp : PathStep.up ∉ path.moves) :
    ∃ (names : List Name) (rest : List PathStep), path.moves = names.map .enter ++ rest ∧
      (rest = [] ∨ ∃ more, rest = .impossible :: more) := by
  have before : ∀ steps : List PathStep, PathStep.up ∉ steps → PathStep.stay ∉ steps →
      ∃ (names : List Name) (rest : List PathStep), steps = names.map .enter ++ rest ∧
        (rest = [] ∨ ∃ more, rest = .impossible :: more) := by
    intro steps noUp noStay
    induction steps with
    | nil => exact ⟨[], [], rfl, .inl rfl⟩
    | cons step steps ih =>
      simp only [List.mem_cons, not_or] at noUp noStay
      cases step with
      | stay => exact absurd rfl noStay.1
      | up => exact absurd rfl noUp.1
      | impossible => exact ⟨[], _, rfl, .inr ⟨steps, rfl⟩⟩
      | enter name =>
        obtain ⟨names, rest, split, ends⟩ := ih noUp.2 noStay.2
        exact ⟨name :: names, rest, by rw [split]; rfl, ends⟩
  refine before _ noUp fun member => ?_
  cases (List.mem_filter.1 member).2

/-- Moves that neither go up nor are impossible are names. -/
theorem names_of_moves {path : Path} (noUp : PathStep.up ∉ path.moves)
    (possible : PathStep.impossible ∉ path.moves) :
    ∃ front : List Name, path.moves = front.map .enter := by
  obtain ⟨names, rest, moves, rfl | ⟨more, rfl⟩⟩ := names_before noUp
  · exact ⟨names, by rw [moves, List.append_nil]⟩
  · rw [moves] at possible
    simp at possible

/-- The names of a reference that a library holds. -/
theorem names_of_holder (contained : containedPath? text = some path)
    (holds : files.exists? (library.join path) = .ok true) :
    ∃ front : List Name, front ≠ [] ∧ path.moves = front.map .enter := by
  obtain ⟨relative, noUp, proper⟩ := contained_moves contained
  obtain ⟨entry, found⟩ := FileSystem.exists?_eq_ok_true_iff.1 holds
  obtain ⟨location, place, _⟩ := FileSystem.leads_of_examine found
  obtain ⟨_, _, walk⟩ := FileSystem.leads_of_locate place
  rw [Path.moves_join relative] at walk
  have possible : PathStep.impossible ∉ path.moves := fun member =>
    walk.impossible_notMem (List.mem_append_right _ member)
  obtain ⟨front, moves⟩ := names_of_moves noUp possible
  refine ⟨front, ?_, moves⟩
  rintro rfl
  exact proper moves

theorem bytes_join_ne_nil (contained : containedPath? text = some path) (library : Path) :
    (library.join path).bytes ≠ [] :=
  Path.bytes_join_ne_nil fun empty =>
    (contained_moves contained).2.2 (Path.moves_of_empty empty)

/-! ## Searching the libraries -/

/-- A library that lacks the path is passed over. -/
theorem SearchEnds.cons {candidate : Path} {ending : Except StagingFault (Option Path)}
    (lacks : files.exists? (candidate.join path) = .ok false)
    (ends : SearchEnds files libraries path ending) :
    SearchEnds files (candidate :: libraries) path ending := by
  cases ends with
  | holds holder =>
    obtain ⟨before, after, split, earlier, holds⟩ := holder
    refine .holds ⟨candidate :: before, after, by rw [split, List.cons_append], ?_, holds⟩
    exact List.forall_mem_cons.2 ⟨lacks, earlier⟩
  | missing nowhere => exact .missing (List.forall_mem_cons.2 ⟨lacks, nowhere⟩)
  | @stops before after library fault split earlier fails =>
    have split : candidate :: libraries = (candidate :: before) ++ library :: after := by
      rw [split, List.cons_append]
    exact .stops split (List.forall_mem_cons.2 ⟨lacks, earlier⟩) fails

/-! ## One place, one library -/

/-- Of two libraries that were taken, one was passed over in the search for the other path. -/
theorem FirstHolder.compare {first second path' : Path}
    (one : FirstHolder files libraries path first)
    (other : FirstHolder files libraries path' second) :
    first = second ∨ files.exists? (first.join path') = .ok false ∨
      files.exists? (second.join path) = .ok false := by
  obtain ⟨before, after, split, earlier, _⟩ := one
  obtain ⟨before', after', split', earlier', _⟩ := other
  rcases List.append_eq_append_iff.1 (split.symm.trans split') with
    ⟨more, beforeMore, rest_eq⟩ | ⟨more, beforeMore, rest_eq⟩
  · cases more with
    | nil => exact .inl (List.cons.inj rest_eq).1
    | cons library more =>
      obtain ⟨rfl, _⟩ := List.cons.inj rest_eq
      exact .inr (.inl (earlier' first (by simp [beforeMore])))
  · cases more with
    | nil => exact .inl (List.cons.inj rest_eq).1.symm
    | cons library more =>
      obtain ⟨rfl, _⟩ := List.cons.inj rest_eq
      exact .inr (.inr (earlier second (by simp [beforeMore])))

theorem FirstHolder.holds (holder : FirstHolder files libraries path library) :
    files.exists? (library.join path) = .ok true := by
  obtain ⟨_, _, _, _, holds⟩ := holder
  exact holds

/-- A library is the first to hold a path in one way only. -/
theorem FirstHolder.unique {first second : Path} (one : FirstHolder files libraries path first)
    (other : FirstHolder files libraries path second) : first = second := by
  rcases one.compare other with same | missing | missing
  · exact same
  · cases missing.symm.trans one.holds
  · cases missing.symm.trans other.holds

/-- Paths below a library that spell one place lead to the same. -/
theorem leads_of_same_place {first second : Path} {front back front' back' : List Name}
    {entry : Entry} (relative : first.isAbsolute = false) (relative' : second.isAbsolute = false)
    (moves : first.moves = front.map .enter) (moves' : second.moves = front'.map .enter)
    (samePlace : front ++ back = front' ++ back')
    (stands : files.tree (library.join first) back = some entry) :
    ∃ location, files.Leads ((library.join second).below back') (.present location) ∧
      (files.get? location).getD .directory = entry := by
  obtain ⟨location, leads, same⟩ := FileSystem.leads_of_tree stands
  refine ⟨location, leads.of_same ?_ ?_, same⟩
  · rw [Path.isAbsolute_below, Path.isAbsolute_below, Path.isAbsolute_join relative,
      Path.isAbsolute_join relative']
  · rw [Path.moves_below, Path.moves_below, Path.moves_join relative, Path.moves_join relative',
      moves, moves', List.append_assoc, List.append_assoc, ← List.map_append, ← List.map_append,
      samePlace]

theorem exists?_ne_false_of_same_place {first second : Path} {front back front' back' : List Name}
    {entry : Entry} (relative : first.isAbsolute = false) (relative' : second.isAbsolute = false)
    (moves : first.moves = front.map .enter) (moves' : second.moves = front'.map .enter)
    (samePlace : front ++ back = front' ++ back') (nonempty : (library.join second).bytes ≠ [])
    (stands : files.tree (library.join first) back = some entry) :
    files.exists? (library.join second) ≠ .ok false := by
  obtain ⟨location, leads, _⟩ :=
    leads_of_same_place relative relative' moves moves' samePlace stands
  cases back' with
  | nil => exact leads.exists?_ne_false nonempty
  | cons name rest =>
    obtain ⟨used, few, walk⟩ := leads
    rw [Path.startOf_below] at walk
    obtain ⟨left, fewLeft, middle, upTo, _⟩ := walk.before (Path.moves_below _ _)
    have leadsUpTo : files.Leads (library.join second) (.present middle) :=
      ⟨left, fewLeft.trans few, upTo.lax⟩
    exact leadsUpTo.exists?_ne_false nonempty

/-- Two paths that were found to hold something at one place were found in one library. -/
theorem FirstHolder.eq_of_same_place {first second library' : Path} {text' : Text}
    {front back front' back' : List Name} {entry entry' : Entry}
    (contained : containedPath? text = some first)
    (contained' : containedPath? text' = some second)
    (holder : FirstHolder files libraries first library)
    (holder' : FirstHolder files libraries second library')
    (moves : first.moves = front.map .enter) (moves' : second.moves = front'.map .enter)
    (samePlace : front ++ back = front' ++ back')
    (stands : files.tree (library.join first) back = some entry)
    (stands' : files.tree (library'.join second) back' = some entry') : library = library' := by
  have relative := (contained_moves contained).1
  have relative' := (contained_moves contained').1
  rcases holder.compare holder' with same | missing | missing
  · exact same
  · exact absurd missing (exists?_ne_false_of_same_place relative relative' moves moves'
      samePlace (bytes_join_ne_nil contained' _) stands)
  · exact absurd missing (exists?_ne_false_of_same_place relative' relative moves' moves
      samePlace.symm (bytes_join_ne_nil contained _) stands')

/-- What two references bring to one place is the same. -/
theorem Brings.unique {inner inner' : Text} {place : List Name} {entry entry' : Entry}
    (one : Brings files libraries inner place entry)
    (other : Brings files libraries inner' place entry') : entry = entry' := by
  obtain ⟨path, library, front, rest, contained, holder, moves, rfl, stands⟩ := one
  obtain ⟨path', library', front', rest', contained', holder', moves', samePlace, stands'⟩ := other
  have relative := (contained_moves contained).1
  have relative' := (contained_moves contained').1
  obtain rfl :=
    holder.eq_of_same_place contained contained' holder' moves moves' samePlace stands stands'
  obtain ⟨location, leads, sameEntry⟩ :=
    leads_of_same_place relative relative' moves moves' samePlace stands
  obtain ⟨location', leads', sameEntry'⟩ := FileSystem.leads_of_tree stands'
  obtain rfl := Found.present.inj (leads.unique leads')
  exact sameEntry.symm.trans sameEntry'

/-- For a reference that resolves, what it brings is the tree at its path in that library. -/
theorem brings_iff {inner : Text} {front place : List Name} {entry : Entry}
    (contained : containedPath? (sharedPath inner) = some path)
    (holder : FirstHolder files libraries path library) (moves : path.moves = front.map .enter) :
    Brings files libraries inner place entry ↔
      ∃ rest, place = front ++ rest ∧ files.tree (library.join path) rest = some entry := by
  constructor
  · rintro ⟨path', library', front', rest, contained', holder', moves', rfl, stands⟩
    obtain rfl : path = path' := Option.some.inj (contained.symm.trans contained')
    obtain rfl := holder.unique holder'
    have same : front = front' :=
      List.map_injective_iff.2 Path.enter_injective (moves.symm.trans moves')
    exact ⟨rest, by rw [same], stands⟩
  · rintro ⟨rest, rfl, stands⟩
    exact ⟨path, library, front, rest, contained, holder, moves, rfl, stands⟩

end Template

end ImageStaging
