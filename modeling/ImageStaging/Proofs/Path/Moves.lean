import Mathlib.Data.List.Basic
import Mathlib.Data.List.TakeWhile
import ImageStaging.FileSystem.Lookup

/-!
# The moves of a path

A path moves through directories by its proper steps; a `.` between two slashes asks for nothing.
Joining paths joins their moves, and the parent of a path has one move less. Only the moves decide
where a lookup that succeeds comes to, so later modules compare paths by them.
-/

namespace ImageStaging

namespace PathStep

def isMove : PathStep → Bool
  | .stay => false
  | _ => true

theorem isMove_ofPiece {piece : Bytes} : (ofPiece piece).isMove = decide (piece ≠ [Path.dot]) := by
  unfold ofPiece
  by_cases isDot : piece = [Path.dot]
  · simp [isDot, isMove]
  · rw [if_neg isDot]
    split
    · simp [isMove, isDot]
    · split <;> simp [isMove, isDot]

theorem eq_of_ofPiece_up {piece : Bytes} (isUp : ofPiece piece = .up) :
    piece = [Path.dot, Path.dot] := by
  unfold ofPiece at isUp
  split at isUp
  · cases isUp
  · split at isUp
    · assumption
    · split at isUp <;> cases isUp

theorem bytes_of_ofPiece_enter {piece : Bytes} {name : Name}
    (enters : ofPiece piece = .enter name) : name.bytes = piece := by
  unfold ofPiece at enters
  split at enters
  · cases enters
  · split at enters
    · cases enters
    · next named =>
      split at enters
      · next found =>
        cases enters
        unfold Name.ofBytes? at found
        split at found <;> cases found
        rfl
      · cases enters

end PathStep

namespace Path

/-- The moves that a list of pieces asks for. -/
def movesOf (pieces : List Bytes) : List PathStep :=
  ((pieces.filter (· ≠ [])).map PathStep.ofPiece).filter PathStep.isMove

/-- The steps of a path that go somewhere. -/
def moves (path : Path) : List PathStep :=
  path.steps.filter PathStep.isMove

theorem moves_eq (path : Path) : path.moves = movesOf path.pieces := rfl

theorem steps_of_empty {path : Path} (empty : path.bytes = []) : path.steps = [] := by
  rw [steps, pieces, empty]
  rfl

theorem moves_of_empty {path : Path} (empty : path.bytes = []) : path.moves = [] := by
  rw [moves, steps_of_empty empty, List.filter_nil]

@[simp] theorem movesOf_append (first second : List Bytes) :
    movesOf (first ++ second) = movesOf first ++ movesOf second := by
  simp [movesOf]

@[simp] theorem movesOf_empty_cons (rest : List Bytes) : movesOf ([] :: rest) = movesOf rest := rfl

theorem Component.isNone_ofPiece {piece : Bytes} :
    (ofPiece piece).isNone = decide (piece = [] ∨ piece = [dot]) := by
  unfold ofPiece
  by_cases isSilent : piece = [] ∨ piece = [dot]
  · simp [isSilent]
  · simp only [Bool.or_eq_true, decide_eq_true_eq, isSilent, if_false, decide_false]
    split <;> rfl

/-- The moves are those of the pieces that are components. -/
theorem mem_movesOf {pieces : List Bytes} {move : PathStep} : move ∈ movesOf pieces ↔
    ∃ piece ∈ pieces, (Component.ofPiece piece).isNone = false ∧ PathStep.ofPiece piece = move := by
  simp only [movesOf, List.mem_filter, List.mem_map, Component.isNone_ofPiece,
    decide_eq_false_iff_not, decide_eq_true_eq, not_or]
  constructor
  · rintro ⟨⟨piece, ⟨member, notEmpty⟩, rfl⟩, moves⟩
    exact ⟨piece, member, ⟨notEmpty, by simpa [PathStep.isMove_ofPiece] using moves⟩, rfl⟩
  · rintro ⟨piece, member, ⟨notEmpty, notDot⟩, rfl⟩
    exact ⟨⟨piece, ⟨member, notEmpty⟩, rfl⟩, by simpa [PathStep.isMove_ofPiece] using notDot⟩

theorem movesOf_of_isNone {pieces : List Bytes}
    (silent : ∀ piece ∈ pieces, (Component.ofPiece piece).isNone = true) :
    movesOf pieces = [] := by
  refine List.eq_nil_iff_forall_not_mem.2 fun move member => ?_
  obtain ⟨piece, inPieces, proper, -⟩ := mem_movesOf.1 member
  cases (silent piece inPieces).symm.trans proper

theorem movesOf_singleton {piece : Bytes} (proper : (Component.ofPiece piece).isNone = false) :
    movesOf [piece] = [PathStep.ofPiece piece] := by
  have notSilent : piece ≠ [] ∧ piece ≠ [dot] := by simpa [Component.isNone_ofPiece] using proper
  simp [movesOf, notSilent.1, notSilent.2, PathStep.isMove_ofPiece]

/-! ## Components -/

theorem mem_components {path : Path} {piece : Bytes} {part : Component}
    (member : piece ∈ path.pieces) (isPart : Component.ofPiece piece = some part) :
    part ∈ path.components := by
  have inBody : part ∈ path.pieces.filterMap Component.ofPiece :=
    List.mem_filterMap.2 ⟨piece, member, isPart⟩
  unfold components
  dsimp only
  split
  · exact List.mem_cons_of_mem _ inBody
  · split
    · exact List.mem_cons_of_mem _ inBody
    · exact inBody

/-- A path that has a move up has `..` among its components. -/
theorem parent_mem_components {path : Path} (asksUp : .up ∈ path.moves) :
    .parent ∈ path.components := by
  obtain ⟨piece, member, -, isUp⟩ := mem_movesOf.1 asksUp
  obtain rfl := PathStep.eq_of_ofPiece_up isUp
  exact mem_components member rfl

/-- A relative path that has any component but a `.` in front moves somewhere. -/
theorem moves_ne_nil_of_component {path : Path} (relative : path.isAbsolute = false)
    {part : Component} (member : part ∈ path.components) (notCurrent : part ≠ .current) :
    path.moves ≠ [] := by
  have inBody : part ∈ path.pieces.filterMap Component.ofPiece := by
    simp only [components, relative, Bool.false_eq_true, if_false] at member
    split at member
    · exact (List.mem_cons.1 member).resolve_left notCurrent
    · exact member
  obtain ⟨piece, inPieces, isPart⟩ := List.mem_filterMap.1 inBody
  exact List.ne_nil_of_mem (mem_movesOf.2 ⟨piece, inPieces, by rw [isPart]; rfl, rfl⟩)

/-! ## Joining -/

theorem pieces_append_slash (front back : Bytes) :
    (⟨front ++ slash :: back⟩ : Path).pieces = (⟨front⟩ : Path).pieces ++ (⟨back⟩ : Path).pieces :=
  List.splitOn_append_cons_self front back

/-- The pieces of a joined path that are not empty are those of its two parts. -/
theorem pieces_join {base path : Path} (relative : path.isAbsolute = false) :
    (base.join path).pieces.filter (· ≠ []) =
      base.pieces.filter (· ≠ []) ++ path.pieces.filter (· ≠ []) := by
  obtain ⟨bytes⟩ := base
  unfold join
  rw [if_neg (by simp [relative])]
  split
  · next ends =>
    rcases List.eq_nil_or_concat bytes with rfl | ⟨front, last, rfl⟩
    · simp [pieces]
    · have isSlash : last = slash := by simpa [endsWithSlash] using ends
      subst isSlash
      have whole := pieces_append_slash front path.bytes
      have head := pieces_append_slash front []
      simp only [List.append_assoc, List.cons_append, List.nil_append, List.concat_eq_append] at *
      rw [whole, head, List.filter_append, List.filter_append]
      simp [pieces]
  · rw [pieces_append_slash, List.filter_append]

theorem steps_join {base path : Path} (relative : path.isAbsolute = false) :
    (base.join path).steps = base.steps ++ path.steps := by
  rw [steps, pieces_join relative, List.map_append]
  rfl

theorem moves_join {base path : Path} (relative : path.isAbsolute = false) :
    (base.join path).moves = base.moves ++ path.moves := by
  rw [moves, steps_join relative, List.filter_append]
  rfl

theorem isAbsolute_join {base path : Path} (relative : path.isAbsolute = false) :
    (base.join path).isAbsolute = base.isAbsolute := by
  obtain ⟨bytes⟩ := base
  cases bytes with
  | nil =>
    unfold join
    rw [if_neg (by simp [relative]), if_pos (by rfl)]
    exact relative
  | cons first rest =>
    unfold join
    rw [if_neg (by simp [relative])]
    split <;> simp [isAbsolute]

theorem bytes_join_ne_nil {base path : Path} (nonempty : path.bytes ≠ []) :
    (base.join path).bytes ≠ [] := by
  unfold join
  split
  · exact nonempty
  · split <;> simp [nonempty]

theorem length_lt_length_join {base path : Path} (nonempty : base.bytes ≠ [])
    (relative : path.isAbsolute = false) : path.bytes.length < (base.join path).bytes.length := by
  have := List.length_pos_iff.2 nonempty
  unfold join
  rw [if_neg (by simp [relative])]
  split
  · rw [List.length_append]
    omega
  · rw [List.length_append, List.length_cons]
    omega

theorem length_base_lt_length_join {base path : Path} (nonempty : path.bytes ≠ [])
    (relative : path.isAbsolute = false) : base.bytes.length < (base.join path).bytes.length := by
  have := List.length_pos_iff.2 nonempty
  unfold join
  rw [if_neg (by simp [relative])]
  split
  · rw [List.length_append]
    omega
  · rw [List.length_append, List.length_cons]
    omega

theorem endsWithSlash_join {base path : Path} (relative : path.isAbsolute = false)
    (nonempty : path.bytes ≠ []) : (base.join path).endsWithSlash = path.endsWithSlash := by
  have last (front : Bytes) : (front ++ path.bytes).getLast? = path.bytes.getLast? := by
    rw [List.getLast?_append_of_ne_nil _ nonempty]
  unfold join
  rw [if_neg (by simp [relative])]
  split
  · simp only [endsWithSlash, last]
  · rw [show base.bytes ++ slash :: path.bytes = (base.bytes ++ [slash]) ++ path.bytes by simp]
    simp only [endsWithSlash, last]

theorem startOf_join (files : FileSystem) {base path : Path}
    (relative : path.isAbsolute = false) :
    files.startOf (base.join path) = files.startOf base := by
  simp only [FileSystem.startOf, isAbsolute_join relative]

/-! ## Parents -/

theorem pieces_cons_slash (rest : Bytes) :
    (⟨slash :: rest⟩ : Path).pieces = [] :: (⟨rest⟩ : Path).pieces := by
  simp [pieces, List.splitOn_cons_eq_if_modifyHead]

theorem slash_notMem_of_mem_splitOn {bytes piece : Bytes} (member : piece ∈ bytes.splitOn slash) :
    slash ∉ piece := by
  induction bytes generalizing piece with
  | nil =>
    have : piece = [] := by simpa using member
    simp [this]
  | cons first rest ih =>
    rw [List.splitOn_cons_eq_if_modifyHead] at member
    split at member
    · rcases List.mem_cons.1 member with rfl | inRest
      · simp
      · exact ih inRest
    · next other =>
      obtain ⟨head, tail, split⟩ := List.exists_cons_of_ne_nil (List.splitOn_ne_nil slash rest)
      rw [split] at member ih
      rcases List.mem_cons.1 member with rfl | inTail
      · have notHead := ih List.mem_cons_self
        have differ : slash ≠ first := fun same => other (by simp [same])
        simp [differ, notHead]
      · exact ih (List.mem_cons_of_mem _ inTail)

theorem pieces_of_noSlash {path : Path} (noSlash : slash ∉ path.bytes) :
    path.pieces = [path.bytes] :=
  List.splitOn_eq_singleton noSlash

/-- Every byte of a path but its slashes is in one of its pieces. -/
theorem exists_piece_of_mem {path : Path} {byte : UInt8} (member : byte ∈ path.bytes)
    (notSlash : byte ≠ slash) : ∃ piece ∈ path.pieces, byte ∈ piece := by
  obtain ⟨bytes⟩ := path
  have general : ∃ piece ∈ bytes.splitOn slash, byte ∈ piece := by
    induction bytes with
    | nil => cases member
    | cons first rest ih =>
      rw [List.splitOn_cons_eq_if_modifyHead]
      obtain ⟨head, tail, split⟩ := List.exists_cons_of_ne_nil (List.splitOn_ne_nil slash rest)
      rw [split] at ih ⊢
      rcases List.mem_cons.1 member with rfl | inRest
      · rw [if_neg (by simpa using notSlash)]
        exact ⟨byte :: head, List.mem_cons_self, List.mem_cons_self⟩
      · obtain ⟨piece, isPiece, inPiece⟩ := ih inRest
        split
        · exact ⟨piece, List.mem_cons_of_mem _ isPiece, inPiece⟩
        · rcases List.mem_cons.1 isPiece with rfl | inTail
          · exact ⟨first :: piece, List.mem_cons_self, List.mem_cons_of_mem _ inPiece⟩
          · exact ⟨piece, List.mem_cons_of_mem _ inTail, inPiece⟩
  exact general

/-- The pieces of a path put together from pieces, of which the empty list gives an empty piece. -/
theorem movesOf_intercalate {pieces : List Bytes} (clean : ∀ piece ∈ pieces, slash ∉ piece) :
    movesOf (([slash].intercalate pieces).splitOn slash) = movesOf pieces := by
  by_cases empty : pieces = []
  · simp [empty]
  · rw [List.splitOn_intercalate slash clean empty]

/-- What a path begins with, the pieces that follow it, and whether such a path is absolute. -/
inductive Anchors : Bytes → List Bytes → Bool → Prop
  | root (pieces : List Bytes) : Anchors [slash] pieces true
  | current {pieces : List Bytes} (quiet : ∀ piece ∈ pieces.head?, piece = []) :
    Anchors [dot] pieces false
  | nothing {pieces : List Bytes} (proper : pieces.head? ≠ some []) : Anchors [] pieces false

/-- The pieces at the end can be left out. -/
theorem Anchors.front {anchor : Bytes} {front back : List Bytes} {absolute : Bool}
    (anchors : Anchors anchor (front ++ back) absolute) : Anchors anchor front absolute := by
  have head : ∀ piece, front.head? = some piece → (front ++ back).head? = some piece := by
    intro piece isHead
    rw [List.head?_append, isHead, Option.some_or]
  cases anchors with
  | root => exact .root front
  | current quiet => exact .current fun piece isHead => quiet piece (head piece isHead)
  | nothing proper => exact .nothing fun isHead => proper (head [] isHead)

/-- A path that is put together from an anchor and the pieces behind it. -/
theorem Anchors.moves_eq {anchor : Bytes} {pieces : List Bytes} {absolute : Bool}
    (anchors : Anchors anchor pieces absolute) (clean : ∀ piece ∈ pieces, slash ∉ piece) :
    (⟨anchor ++ [slash].intercalate pieces⟩ : Path).isAbsolute = absolute ∧
      (⟨anchor ++ [slash].intercalate pieces⟩ : Path).moves = movesOf pieces := by
  cases anchors with
  | root =>
    refine ⟨rfl, ?_⟩
    rw [Path.moves_eq, List.singleton_append, pieces_cons_slash, movesOf_empty_cons, Path.pieces,
      movesOf_intercalate clean]
  | current quiet =>
    refine ⟨rfl, ?_⟩
    match pieces with
    | [] => rfl
    | [piece] =>
      rw [quiet piece rfl]
      rfl
    | piece :: second :: rest =>
      obtain rfl := quiet piece rfl
      have bytes_eq : [dot] ++ [slash].intercalate ([] :: second :: rest) =
          [dot] ++ slash :: [slash].intercalate (second :: rest) := by
        simp [List.intercalate_cons_of_ne_nil]
      rw [bytes_eq, Path.moves_eq, pieces_append_slash, movesOf_append, movesOf_empty_cons]
      simp only [Path.pieces]
      rw [movesOf_intercalate fun other member => clean other (List.mem_cons_of_mem _ member)]
      rfl
  | nothing proper =>
    refine ⟨?_, ?_⟩
    · match pieces with
      | [] => rfl
      | [] :: rest => exact absurd rfl proper
      | (first :: piece) :: rest =>
        have notSlash : slash ∉ first :: piece := clean _ List.mem_cons_self
        have differ : first ≠ slash := fun same => notSlash (same ▸ List.mem_cons_self)
        cases rest with
        | nil => simp [isAbsolute, differ]
        | cons second rest => simp [isAbsolute, differ, List.intercalate_cons_of_ne_nil]
    · rw [Path.moves_eq, List.nil_append, Path.pieces, movesOf_intercalate clean]

/-- The pieces that a parent is taken from ask for the moves of the path, and the anchor says how
the path begins. -/
theorem moves_eq_of_anchored {path : Path} {anchor : Bytes} {body : List Bytes}
    (split : path.anchored = (anchor, body)) :
    path.moves = movesOf body ∧ (∀ piece ∈ body, slash ∉ piece) ∧
      Anchors anchor body path.isAbsolute := by
  obtain ⟨bytes⟩ := path
  cases bytes with
  | nil =>
    obtain ⟨rfl, rfl⟩ : [] = anchor ∧ [] = body := by simpa [anchored] using split
    exact ⟨rfl, by simp, .nothing (by simp)⟩
  | cons first rest =>
    simp only [anchored] at split
    have clean : ∀ piece ∈ rest.splitOn slash, slash ∉ piece := fun _ member =>
      slash_notMem_of_mem_splitOn member
    by_cases isSlash : first = slash
    · subst isSlash
      obtain ⟨rfl, rfl⟩ : [slash] = anchor ∧ rest.splitOn slash = body := by simpa using split
      refine ⟨?_, clean, .root _⟩
      rw [moves_eq, pieces_cons_slash, movesOf_empty_cons, pieces]
    · have relative : (⟨first :: rest⟩ : Path).isAbsolute = false := by
        simp [isAbsolute, isSlash]
      obtain ⟨head, tail, parts⟩ := List.exists_cons_of_ne_nil (List.splitOn_ne_nil slash rest)
      have pieces_eq : (⟨first :: rest⟩ : Path).pieces = (first :: head) :: tail := by
        simp [pieces, List.splitOn_cons_eq_if_modifyHead, isSlash, parts]
      rw [if_neg isSlash, pieces_eq, List.head?_cons] at split
      rw [relative]
      by_cases isDot : first :: head = [dot]
      · obtain ⟨rfl, rfl⟩ : first = dot ∧ head = [] := by simpa using isDot
        rw [if_pos rfl, parts] at split
        obtain ⟨rfl, rfl⟩ : [dot] = anchor ∧ [] :: tail = body := by simpa using split
        refine ⟨?_, parts ▸ clean, .current (by simp)⟩
        rw [moves_eq, pieces_eq]
        rfl
      · rw [if_neg (by simpa using isDot)] at split
        obtain ⟨rfl, rfl⟩ : [] = anchor ∧ (first :: head) :: tail = body := by simpa using split
        refine ⟨?_, ?_, .nothing (by simp)⟩
        · rw [moves_eq, pieces_eq]
        · intro piece member
          rw [← pieces_eq] at member
          exact slash_notMem_of_mem_splitOn member

theorem exists_dropSilentEnd (reversed : List Bytes) :
    ∃ silent, reversed = silent ++ dropSilentEnd reversed ∧ movesOf silent.reverse = [] ∧
      ∀ piece rest, dropSilentEnd reversed = piece :: rest →
        (Component.ofPiece piece).isNone = false := by
  refine ⟨reversed.takeWhile fun piece => (Component.ofPiece piece).isNone, ?_, ?_, ?_⟩
  · exact List.takeWhile_append_dropWhile.symm
  · apply movesOf_of_isNone
    intro piece member
    have inside := List.mem_reverse.1 member
    exact List.mem_takeWhile_imp (p := fun piece => (Component.ofPiece piece).isNone) inside
  · intro piece rest isCons
    have := List.head?_dropWhile_not (fun piece => (Component.ofPiece piece).isNone) reversed
    rw [show reversed.dropWhile _ = piece :: rest from isCons] at this
    simpa using this

/-- A parent begins where its path begins and has all its moves but the last. -/
theorem moves_parent? {path parent : Path} (found : path.parent? = some parent) :
    parent.isAbsolute = path.isAbsolute ∧
      ((path.moves = [] ∧ parent.moves = []) ∨
        ∃ last, path.moves = parent.moves ++ [last]) := by
  obtain ⟨anchor, body, split⟩ : ∃ anchor body, path.anchored = (anchor, body) :=
    ⟨_, _, rfl⟩
  obtain ⟨moves, clean, anchors⟩ := moves_eq_of_anchored split
  obtain ⟨silent, whole, quiet, proper⟩ := exists_dropSilentEnd body.reverse
  rw [parent?, split] at found
  dsimp only at found
  cases dropped : dropSilentEnd body.reverse with
  | nil =>
    rw [dropped] at found whole
    have isSilent : movesOf body = [] := by
      rw [← List.reverse_reverse body, whole, List.append_nil, quiet]
    by_cases isDot : anchor = [dot]
    · obtain rfl : (⟨[]⟩ : Path) = parent := by simpa [isDot] using found
      refine ⟨?_, .inl ⟨moves.trans isSilent, rfl⟩⟩
      rw [isDot] at anchors
      generalize path.isAbsolute = absolute at anchors
      cases anchors
      rfl
    · simp [isDot] at found
  | cons last above =>
    rw [dropped] at found whole
    obtain ⟨silentAbove, wholeAbove, quietAbove, _⟩ := exists_dropSilentEnd above
    obtain rfl := Option.some.inj found
    generalize dropSilentEnd above = kept at wholeAbove ⊢
    have body_eq : body = kept.reverse ++ (silentAbove.reverse ++ ([last] ++ silent.reverse)) := by
      rw [← List.reverse_reverse body, whole, wholeAbove]
      simp
    have path_moves : path.moves = movesOf kept.reverse ++ [PathStep.ofPiece last] := by
      rw [moves, body_eq, movesOf_append, movesOf_append, movesOf_append, quiet, quietAbove,
        movesOf_singleton (proper last above dropped), List.nil_append, List.append_nil]
    rw [body_eq] at clean anchors
    obtain ⟨begins, parent_moves⟩ := anchors.front.moves_eq fun piece member =>
      clean piece (List.mem_append_left _ member)
    exact ⟨begins, .inr ⟨PathStep.ofPiece last, path_moves.trans (by rw [parent_moves])⟩⟩

/-- Only a path that asks for nothing can be without a parent. -/
theorem parent?_isSome {path : Path} (proper : path.moves ≠ []) : path.parent?.isSome := by
  obtain ⟨anchor, body, split⟩ : ∃ anchor body, path.anchored = (anchor, body) :=
    ⟨_, _, rfl⟩
  obtain ⟨silent, whole, quiet, _⟩ := exists_dropSilentEnd body.reverse
  rw [parent?, split]
  dsimp only
  cases dropped : dropSilentEnd body.reverse with
  | cons last above => rfl
  | nil =>
    rw [dropped, List.append_nil] at whole
    refine absurd ?_ proper
    rw [(moves_eq_of_anchored split).1, ← List.reverse_reverse body, whole, quiet]

end Path

/-! ## Names as paths -/

namespace Name

@[simp] theorem isAbsolute_toPath (name : Name) : name.toPath.isAbsolute = false := by
  obtain ⟨bytes, nonempty, _, noSlash, _⟩ := name
  cases bytes with
  | nil => exact absurd rfl nonempty
  | cons first rest =>
    have differ : first ≠ Path.slash := fun same => noSlash (same ▸ List.mem_cons_self)
    simp [toPath, Path.isAbsolute, differ]

theorem bytes_toPath_ne_nil (name : Name) : name.toPath.bytes ≠ [] := name.valid.1

theorem toPath_injective : Function.Injective toPath := by
  rintro ⟨bytes, valid⟩ ⟨bytes', valid'⟩ same
  obtain rfl : bytes = bytes' := congrArg Path.bytes same
  rfl

@[simp] theorem endsWithSlash_toPath (name : Name) : name.toPath.endsWithSlash = false := by
  have noSlash := name.valid.2.2.1
  exact decide_eq_false fun last => noSlash (List.mem_of_getLast? last)

theorem pieces_toPath (name : Name) : name.toPath.pieces = [name.bytes] :=
  List.splitOn_eq_singleton name.valid.2.2.1

@[simp] theorem steps_toPath (name : Name) : name.toPath.steps = [.enter name] := by
  have proper := name.valid
  simp [Path.steps, pieces_toPath, proper.1, PathStep.ofPiece, proper.2.2.2.2.1,
    proper.2.2.2.2.2, ofBytes?_bytes]

@[simp] theorem moves_toPath (name : Name) : name.toPath.moves = [.enter name] := by
  simp [Path.moves, PathStep.isMove]

end Name

namespace Path

/-- The path of an entry that lies below the end of a path. -/
def below (path : Path) (names : List Name) : Path :=
  names.foldl (fun path name => path.join name.toPath) path

@[simp] theorem below_nil (path : Path) : path.below [] = path := rfl

@[simp] theorem below_cons (path : Path) (name : Name) (rest : List Name) :
    path.below (name :: rest) = (path.join name.toPath).below rest := rfl

theorem below_append (path : Path) (first second : List Name) :
    path.below (first ++ second) = (path.below first).below second :=
  List.foldl_append

theorem below_concat (path : Path) (names : List Name) (name : Name) :
    path.below (names ++ [name]) = (path.below names).join name.toPath :=
  below_append path names [name]

@[simp] theorem moves_below (path : Path) (names : List Name) :
    (path.below names).moves = path.moves ++ names.map .enter := by
  induction names generalizing path with
  | nil => simp
  | cons name rest ih => rw [below_cons, ih, moves_join (by simp)]; simp

theorem bytes_below_ne_nil {path : Path} (nonempty : path.bytes ≠ []) (names : List Name) :
    (path.below names).bytes ≠ [] := by
  induction names generalizing path with
  | nil => exact nonempty
  | cons name rest ih => exact ih (bytes_join_ne_nil name.bytes_toPath_ne_nil)

@[simp] theorem isAbsolute_below (path : Path) (names : List Name) :
    (path.below names).isAbsolute = path.isAbsolute := by
  induction names generalizing path with
  | nil => rfl
  | cons name rest ih => rw [below_cons, ih, isAbsolute_join (by simp)]

theorem startOf_below (files : FileSystem) (path : Path) (names : List Name) :
    files.startOf (path.below names) = files.startOf path := by
  simp only [FileSystem.startOf, isAbsolute_below]

/-- The last component of a name joined to a path is that name. -/
theorem fileName?_join_name (base : Path) (name : Name) :
    (base.join name.toPath).fileName? = some name.bytes := by
  obtain ⟨front, isLast⟩ : ∃ front, (base.join name.toPath).pieces = front ++ [name.bytes] := by
    obtain ⟨bytes⟩ := base
    unfold join
    rw [if_neg (by simp)]
    split
    · next ends =>
      rcases List.eq_nil_or_concat bytes with rfl | ⟨front, last, rfl⟩
      · exact ⟨[], name.pieces_toPath⟩
      · have isSlash : last = slash := by simpa [endsWithSlash] using ends
        subst isSlash
        refine ⟨(⟨front⟩ : Path).pieces, ?_⟩
        have whole := pieces_append_slash front name.bytes
        rw [← name.pieces_toPath]
        simpa [Name.toPath] using whole
    · refine ⟨(⟨bytes⟩ : Path).pieces, ?_⟩
      rw [← name.pieces_toPath]
      exact pieces_append_slash bytes name.bytes
  have proper := name.valid
  have component : Component.ofPiece name.bytes = some (.name name.bytes) := by
    simp [Component.ofPiece, proper.1, proper.2.2.2.2.1, proper.2.2.2.2.2]
  have body : (base.join name.toPath).pieces.filterMap Component.ofPiece =
      front.filterMap Component.ofPiece ++ [.name name.bytes] := by
    rw [isLast, List.filterMap_append]
    simp [component]
  have last : (base.join name.toPath).components.getLast? = some (.name name.bytes) := by
    rw [components, body]
    split
    · rw [← List.cons_append, List.getLast?_concat]
    · split
      · rw [← List.cons_append, List.getLast?_concat]
      · rw [List.getLast?_concat]
  rw [fileName?, last]

theorem Component.of_ofPiece_name {piece bytes : Bytes} (isName : ofPiece piece = some (.name bytes)) :
    piece = bytes ∧ piece ≠ [] ∧ piece ≠ [dot] ∧ piece ≠ [dot, dot] := by
  unfold ofPiece at isName
  split at isName
  · cases isName
  · next audible =>
    rw [Bool.or_eq_true, decide_eq_true_eq, decide_eq_true_eq, not_or] at audible
    split at isName
    · cases isName
    · next notUp => exact ⟨Component.name.inj (Option.some.inj isName), audible.1, audible.2, notUp⟩

/-- The last component of a path that ends in a name is what the path asks for last. -/
theorem moves_of_fileName? {path : Path} {bytes : Bytes} (named : path.fileName? = some bytes) :
    ∃ above, path.parent? = some above ∧ above.isAbsolute = path.isAbsolute ∧
      path.moves = above.moves ++ [PathStep.ofPiece bytes] ∧
      slash ∉ bytes ∧ bytes ≠ [] ∧ bytes ≠ [dot] ∧ bytes ≠ [dot, dot] := by
  have last : (path.pieces.filterMap Component.ofPiece).getLast? = some (.name bytes) := by
    have ends : path.components.getLast? = some (.name bytes) := by
      rw [fileName?] at named
      split at named
      · next found => rw [found, Option.some.inj named]
      · cases named
    rw [components] at ends
    generalize path.pieces.filterMap Component.ofPiece = body at ends ⊢
    split at ends
    · cases body with
      | nil => cases ends
      | cons => simpa using ends
    · split at ends
      · cases body with
        | nil => cases ends
        | cons => simpa using ends
      · exact ends
  obtain ⟨front, whole⟩ := List.getLast?_eq_some_iff.1 last
  obtain ⟨before, rest, split, -, isLast⟩ := List.filterMap_eq_append_iff.1 whole
  obtain ⟨quiet, piece, back, rfl, silent, isPiece, nothing⟩ := List.filterMap_eq_cons_iff.1 isLast
  have member : piece ∈ path.pieces := by simp [split]
  obtain ⟨rfl, nonempty, notDot, notUp⟩ := Component.of_ofPiece_name isPiece
  have moves : path.moves = movesOf (before ++ quiet) ++ [PathStep.ofPiece piece] := by
    have quietBack : movesOf back = [] := movesOf_of_isNone fun other inBack => by
      rw [List.filterMap_eq_nil_iff.1 nothing other inBack, Option.isNone_none]
    have proper : (Component.ofPiece piece).isNone = false := by
      rw [isPiece, Option.isNone_some]
    rw [moves_eq, split, ← List.singleton_append, ← List.append_assoc, ← List.append_assoc,
      movesOf_append, movesOf_append, movesOf_singleton proper, quietBack, List.append_nil]
  obtain ⟨above, found⟩ :=
    Option.isSome_iff_exists.1 (parent?_isSome (moves ▸ List.concat_ne_nil _ _))
  obtain ⟨isAbsolute, ⟨noMoves, -⟩ | ⟨last, movesAbove⟩⟩ := moves_parent? found
  · rw [moves] at noMoves
    simp at noMoves
  · obtain ⟨-, same⟩ := List.append_inj' (movesAbove.symm.trans moves) rfl
    exact ⟨above, found, isAbsolute, movesAbove.trans (by rw [same]),
      slash_notMem_of_mem_splitOn member, nonempty, notDot, notUp⟩

/-- A path of one piece that is not silent is a name, or no entry can be called so. -/
theorem name_or_impossible {path : Path} (noSlash : slash ∉ path.bytes) (nonempty : path.bytes ≠ [])
    (notDot : path.bytes ≠ [dot]) (notUp : path.bytes ≠ [dot, dot]) :
    (∃ name : Name, path = name.toPath) ∨ path.steps = [.impossible] := by
  by_cases valid : Name.Valid path.bytes
  · exact .inl ⟨⟨_, valid⟩, rfl⟩
  · refine .inr ?_
    simp [steps, pieces_of_noSlash noSlash, nonempty, PathStep.ofPiece, notDot, notUp,
      Name.ofBytes?, valid]

end Path

end ImageStaging
