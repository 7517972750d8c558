import ImageStaging.Proofs.Path.Moves
import ImageStaging.Proofs.Text.Utf8

/-!
# The components of joined paths

Whether a path stays below another one by its spelling is decided by its components, but the path
is used as it is spelled. The components of a path that is not absolute and never goes up are names,
up to a `.` in front, and joined to an absolute path it adds just these names, however many slashes
and dots there are in either of the two.
-/

namespace ImageStaging.Path

variable {base root path : Path}

def Component.isName : Component → Bool
  | .name _ => true
  | _ => false

/-- The components of a path that are names, in their order. -/
def nameParts (path : Path) : List Component :=
  path.components.filter Component.isName

/-- The path begins nowhere in particular, never goes up and asks for something. -/
structure Contained (path : Path) : Prop where
  relative : path.isAbsolute = false
  neverUp : .parent ∉ path.components
  proper : ∃ part ∈ path.components, part ≠ .current

/-- By its spelling the path lies strictly below another one: its components are those of the other
one and then one or more names. -/
def LiesBelow (root path : Path) : Prop :=
  ∃ parts, parts ≠ [] ∧ (∀ part ∈ parts, part.isName = true) ∧
    path.components = root.components ++ parts

namespace Component

theorem ofPiece_eq_parent_iff {piece : Bytes} :
    ofPiece piece = some .parent ↔ piece = [dot, dot] := by
  constructor
  · intro isParent
    unfold ofPiece at isParent
    split at isParent
    · cases isParent
    · split at isParent
      · assumption
      · cases isParent
  · rintro rfl
    rfl

/-- Between slashes stands nothing but names and `..`. -/
theorem eq_parent_or_isName {piece : Bytes} {part : Component}
    (isPart : ofPiece piece = some part) : part = .parent ∨ part.isName = true := by
  unfold ofPiece at isPart
  split at isPart
  · cases isPart
  · split at isPart
    · exact .inl (Option.some.inj isPart).symm
    · obtain rfl := Option.some.inj isPart
      exact .inr rfl

end Component

/-! ## The body of a path -/

/-- The components that stand between the slashes of a path. -/
def body (path : Path) : List Component :=
  path.pieces.filterMap Component.ofPiece

theorem components_of_isAbsolute (absolute : path.isAbsolute = true) :
    path.components = .root :: path.body := by
  rw [components, if_pos absolute]
  rfl

/-- A path that is not absolute has at most a `.` before its body. -/
theorem components_of_relative (relative : path.isAbsolute = false) :
    path.components = path.body ∨ path.components = .current :: path.body := by
  rw [components, relative]
  by_cases dotted : path.pieces.head? = some [dot]
  · exact .inr (if_pos dotted)
  · exact .inl (if_neg dotted)

theorem mem_body_iff {part : Component} :
    part ∈ path.body ↔ ∃ piece ∈ path.pieces, Component.ofPiece piece = some part :=
  List.mem_filterMap

theorem eq_parent_or_isName_of_mem_body {part : Component} (member : part ∈ path.body) :
    part = .parent ∨ part.isName = true := by
  obtain ⟨piece, -, isPart⟩ := mem_body_iff.1 member
  exact Component.eq_parent_or_isName isPart

/-- A path has the root among its components if it begins there. -/
theorem root_mem_components_iff : .root ∈ path.components ↔ path.isAbsolute = true := by
  constructor
  · intro member
    by_contra notAbsolute
    have inBody : .root ∈ path.body := by
      rcases components_of_relative (Bool.eq_false_iff.2 notAbsolute) with parts | parts
      · rwa [parts] at member
      · rw [parts] at member
        exact (List.mem_cons.1 member).resolve_left (by decide)
    rcases eq_parent_or_isName_of_mem_body inBody with impossible | impossible <;> cases impossible
  · intro absolute
    rw [components_of_isAbsolute absolute]
    exact List.mem_cons_self

/-- All but a `.` in front belongs to the body. -/
theorem mem_components_iff {part : Component} (relative : path.isAbsolute = false)
    (notCurrent : part ≠ .current) : part ∈ path.components ↔ part ∈ path.body := by
  rcases components_of_relative relative with parts | parts
  · rw [parts]
  · rw [parts, List.mem_cons, or_iff_right notCurrent]

theorem nameParts_of_relative (relative : path.isAbsolute = false) :
    path.nameParts = path.body.filter Component.isName := by
  rcases components_of_relative relative with parts | parts
  · rw [nameParts, parts]
  · rw [nameParts, parts]
    exact List.filter_cons_of_neg Bool.false_ne_true

theorem body_join (relative : path.isAbsolute = false) :
    (base.join path).body = base.body ++ path.body := by
  have heard : ∀ pieces : List Bytes, pieces.filterMap Component.ofPiece =
      (pieces.filter (· ≠ [])).filterMap Component.ofPiece := by
    intro pieces
    rw [List.filterMap_filter]
    apply List.filterMap_congr
    intro piece _
    by_cases empty : piece = []
    · subst empty
      rfl
    · simp [empty]
  rw [body, heard, pieces_join relative, List.filterMap_append, ← heard, ← heard]
  rfl

/-! ## Paths that stay below -/

/-- Between the slashes of such a path there is no `..`, and something other than a `.`. -/
theorem contained_iff : path.Contained ↔ path.isAbsolute = false ∧
    [dot, dot] ∉ path.pieces ∧ ∃ piece ∈ path.pieces, piece ≠ [] ∧ piece ≠ [dot] := by
  have up_iff : Component.parent ∈ path.body ↔ [dot, dot] ∈ path.pieces := by
    simp only [mem_body_iff, Component.ofPiece_eq_parent_iff, exists_eq_right]
  have loud_iff : ∀ piece, (∃ part, Component.ofPiece piece = some part) ↔
      piece ≠ [] ∧ piece ≠ [dot] := by
    intro piece
    rw [← Option.isSome_iff_exists, ← Option.isNone_eq_false_iff, Component.isNone_ofPiece,
      decide_eq_false_iff_not, not_or]
  constructor
  · rintro ⟨relative, neverUp, part, member, notCurrent⟩
    rw [mem_components_iff relative (by decide), up_iff] at neverUp
    rw [mem_components_iff relative notCurrent, mem_body_iff] at member
    obtain ⟨piece, inPieces, isPart⟩ := member
    exact ⟨relative, neverUp, piece, inPieces, (loud_iff piece).1 ⟨part, isPart⟩⟩
  · rintro ⟨relative, neverUp, piece, inPieces, loud⟩
    obtain ⟨part, isPart⟩ := (loud_iff piece).2 loud
    have notCurrent : part ≠ .current := by
      rintro rfl
      rcases Component.eq_parent_or_isName isPart with impossible | impossible <;> cases impossible
    refine ⟨relative, ?_, part, ?_, notCurrent⟩
    · rwa [mem_components_iff relative (by decide), up_iff]
    · rw [mem_components_iff relative notCurrent, mem_body_iff]
      exact ⟨piece, inPieces, isPart⟩

/-- The components of such a path are names, up to a `.` in front. -/
theorem Contained.isName_of_mem_body (contained : path.Contained) :
    ∀ part ∈ path.body, part.isName = true := by
  intro part member
  rcases eq_parent_or_isName_of_mem_body member with rfl | isName
  · have inComponents := (mem_components_iff contained.relative (by decide)).2 member
    exact absurd inComponents contained.neverUp
  · exact isName

theorem Contained.nameParts_eq (contained : path.Contained) : path.nameParts = path.body := by
  rw [nameParts_of_relative contained.relative]
  exact List.filter_eq_self.2 contained.isName_of_mem_body

theorem Contained.nameParts_ne_nil (contained : path.Contained) : path.nameParts ≠ [] := by
  obtain ⟨part, member, notCurrent⟩ := contained.proper
  rw [contained.nameParts_eq]
  exact List.ne_nil_of_mem ((mem_components_iff contained.relative notCurrent).1 member)

/-- Joined to an absolute path such a path adds its names. -/
theorem Contained.components_join (contained : path.Contained) (absolute : root.isAbsolute = true) :
    (root.join path).components = root.components ++ path.nameParts := by
  have relative := contained.relative
  rw [components_of_isAbsolute ((isAbsolute_join relative).trans absolute), body_join relative,
    components_of_isAbsolute absolute, contained.nameParts_eq, List.cons_append]

theorem Contained.liesBelow_join (contained : path.Contained) (absolute : root.isAbsolute = true) :
    root.LiesBelow (root.join path) := by
  have named : ∀ part ∈ path.nameParts, part.isName = true :=
    fun part member => (List.mem_filter.1 member).2
  exact ⟨path.nameParts, contained.nameParts_ne_nil, named, contained.components_join absolute⟩

/-! ## Texts as paths -/

/-- A byte of a character is a slash only if the character is. -/
theorem slash_notMem_encode {c : Char} (notSlash : c ≠ '/') : slash ∉ Utf8.encode [c] := by
  intro member
  have same := Utf8.mem_of_mem_encode (c := '/') (by decide) member
  exact notSlash (List.mem_singleton.1 same).symm

theorem encode_cons (c : Char) (text : Text) :
    Utf8.encode (c :: text) = Utf8.encode [c] ++ Utf8.encode text := by
  simp [Utf8.encode]

theorem isAbsolute_ofText (text : Text) :
    (ofText text).isAbsolute = true ↔ text.head? = some '/' := by
  rw [isAbsolute, decide_eq_true_eq, ofText]
  cases text with
  | nil => simp [Utf8.encode]
  | cons c text =>
    rw [encode_cons, List.head?_cons]
    obtain ⟨byte, rest, bytes⟩ : ∃ byte rest, Utf8.encode [c] = byte :: rest :=
      List.exists_cons_of_ne_nil fun none => List.cons_ne_nil c [] (Utf8.encode_injective none)
    rw [bytes, List.cons_append, List.head?_cons, Option.some_inj, Option.some_inj]
    constructor
    · rintro rfl
      by_contra notSlash
      exact slash_notMem_encode notSlash (bytes ▸ List.mem_cons_self)
    · rintro rfl
      exact (List.cons.inj bytes).1.symm

/-- Bytes in front of others, without a slash, belong to the first piece of these. -/
theorem splitOn_append_of_notMem {front : Bytes} (noSlash : slash ∉ front) (rest : Bytes) :
    (front ++ rest).splitOn slash = (rest.splitOn slash).modifyHead (front ++ ·) := by
  induction front with
  | nil =>
    obtain ⟨head, tail, parts⟩ := List.exists_cons_of_ne_nil (List.splitOn_ne_nil slash rest)
    rw [List.nil_append, parts]
    rfl
  | cons byte front ih =>
    rw [List.mem_cons, not_or] at noSlash
    have notSlash : ¬ (byte == slash) = true := fun same => noSlash.1 (eq_of_beq same).symm
    rw [List.cons_append, List.splitOn_cons_eq_if_modifyHead, if_neg notSlash, ih noSlash.2,
      List.modifyHead_modifyHead]
    rfl

/-- What stands between the slashes of a path is the encoding of what stands between those of its
text. -/
theorem pieces_ofText (text : Text) :
    (ofText text).pieces = (text.splitOn '/').map Utf8.encode := by
  rw [pieces, ofText]
  induction text with
  | nil => rfl
  | cons c text ih =>
    obtain ⟨head, tail, parts⟩ := List.exists_cons_of_ne_nil (List.splitOn_ne_nil '/' text)
    rw [parts] at ih
    by_cases isSlash : c = '/'
    · subst isSlash
      have single : Utf8.encode ['/'] = [slash] := rfl
      rw [encode_cons, single, List.singleton_append, List.splitOn_cons_eq_if_modifyHead,
        List.splitOn_cons_eq_if_modifyHead, parts, ih]
      rfl
    · have differ : ¬ (c == '/') = true := fun same => isSlash (eq_of_beq same)
      rw [encode_cons, splitOn_append_of_notMem (slash_notMem_encode isSlash), ih,
        List.splitOn_cons_eq_if_modifyHead, if_neg differ, parts, List.modifyHead_cons,
        List.map_cons, List.map_cons, List.modifyHead_cons, encode_cons c head]

/-- Which texts are such paths can be seen from the text. -/
theorem contained_ofText_iff (text : Text) : (ofText text).Contained ↔
    text.head? ≠ some '/' ∧ ['.', '.'] ∉ text.splitOn '/' ∧
      ∃ piece ∈ text.splitOn '/', piece ≠ [] ∧ piece ≠ ['.'] := by
  have relative_iff : (ofText text).isAbsolute = false ↔ text.head? ≠ some '/' := by
    rw [← Bool.not_eq_true, isAbsolute_ofText]
  have up_iff : [dot, dot] ∈ (ofText text).pieces ↔ ['.', '.'] ∈ text.splitOn '/' := by
    rw [pieces_ofText, show [dot, dot] = Utf8.encode ['.', '.'] from rfl]
    exact List.mem_map_of_injective fun _ _ => Utf8.encode_injective
  have loud_iff : ∀ piece : Text, Utf8.encode piece ≠ [] ∧ Utf8.encode piece ≠ [dot] ↔
      piece ≠ [] ∧ piece ≠ ['.'] := by
    intro piece
    have same_iff : ∀ other, Utf8.encode piece = Utf8.encode other ↔ piece = other :=
      fun other => ⟨Utf8.encode_injective, congrArg Utf8.encode⟩
    exact and_congr (same_iff []).not (same_iff ['.']).not
  rw [contained_iff, relative_iff, up_iff, pieces_ofText]
  simp only [List.mem_map, exists_exists_and_eq_and, loud_iff]

end ImageStaging.Path
