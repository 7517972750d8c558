import ImageStaging.Config.Basic
import ImageStaging.Proofs.FileSystem.LastStep
import ImageStaging.Proofs.Layout
import ImageStaging.Proofs.Text.Utf8

/-!
# Context directories

A context directory that is accepted and has no slash is one entry of the image source, and none of
those that staging reads. Slashes and dots may follow the name in one that is accepted. Only if it
is too long or holds a NUL character can no entry be called so.
-/

namespace ImageStaging.Config

variable {config : Config}

theorem of_validate (accepted : config.validate = .ok ()) :
    isPlainName config.contextDirectory = true ∧ config.contextDirectory ∉ Layout.reserved := by
  unfold validate at accepted
  split at accepted
  · cases accepted
  · split at accepted
    · cases accepted
    · split at accepted
      · cases accepted
      · next plain =>
        split at accepted
        · cases accepted
        · next free => exact ⟨by simpa using plain, by simpa using free⟩

theorem slash_notMem {text : String} (noSlash : '/' ∉ text.toList) :
    Path.slash ∉ (Path.ofString text).bytes := fun member =>
  noSlash (Utf8.mem_of_mem_encode (by decide) member)

/-! ## Plain names -/

/-- A plain name is one piece with a name in it, and pieces that ask for nothing may follow. -/
theorem pieces_of_isPlainName {text : String} (plain : isPlainName text = true) :
    (Path.ofString text).isAbsolute = false ∧ ∃ first rest,
      (Path.ofString text).pieces = first :: rest ∧ first ≠ [] ∧ first ≠ [Path.dot] ∧
        first ≠ [Path.dot, Path.dot] ∧ ∀ piece ∈ rest, piece = [] ∨ piece = [Path.dot] := by
  rw [isPlainName] at plain
  generalize Path.ofString text = path at *
  cases isAbsolute : path.isAbsolute with
  | true =>
    simp only [Path.components, isAbsolute, if_true] at plain
    cases plain
  | false =>
    refine ⟨rfl, ?_⟩
    obtain ⟨first, rest, pieces⟩ :=
      List.exists_cons_of_ne_nil (List.splitOn_ne_nil Path.slash path.bytes)
    have pieces : path.pieces = first :: rest := pieces
    simp only [Path.components, isAbsolute, pieces, Bool.false_eq_true, if_false, List.head?_cons,
      Option.some.injEq] at plain
    have nonempty : first ≠ [] := by
      rintro rfl
      have whole : [Path.slash].intercalate ([] :: rest) = path.bytes := by
        rw [← pieces]
        exact List.intercalate_splitOn _
      cases rest with
      | nil => simp [Path.Component.ofPiece] at plain
      | cons second rest =>
        rw [List.intercalate_cons_of_ne_nil (by simp)] at whole
        rw [Path.isAbsolute, ← whole] at isAbsolute
        simp at isAbsolute
    have notDot : first ≠ [Path.dot] := by
      rintro rfl
      simp at plain
    have notUp : first ≠ [Path.dot, Path.dot] := by
      rintro rfl
      simp [Path.dot, Path.Component.ofPiece] at plain
    refine ⟨first, rest, pieces, nonempty, notDot, notUp, fun piece member => ?_⟩
    have isName : Path.Component.ofPiece first = some (.name first) := by
      simp [Path.Component.ofPiece, nonempty, notDot, notUp]
    rw [if_neg notDot, List.filterMap_cons_some isName] at plain
    have nothing : rest.filterMap Path.Component.ofPiece = [] := by
      cases others : rest.filterMap Path.Component.ofPiece with
      | nil => rfl
      | cons other more => rw [others] at plain; cases plain
    have silent := List.filterMap_eq_nil_iff.1 nothing piece member
    by_contra proper
    rw [not_or] at proper
    unfold Path.Component.ofPiece at silent
    rw [if_neg (by simpa using proper)] at silent
    split at silent <;> cases silent

theorem steps_of_pieces {path : Path} {first : Bytes} {rest : List Bytes}
    (pieces : path.pieces = first :: rest) (nonempty : first ≠ []) :
    path.steps = PathStep.ofPiece first :: (rest.filter (· ≠ [])).map PathStep.ofPiece := by
  simp [Path.steps, pieces, nonempty]

/-- What a plain name asks for: one name, if an entry can have it, and nothing more. -/
theorem steps_of_isPlainName {text : String} (plain : isPlainName text = true) :
    ∃ stays, (∀ step ∈ stays, step = PathStep.stay) ∧
      ((∃ name : Name, (Path.ofString text).steps = .enter name :: stays) ∨
        (Path.ofString text).steps = .impossible :: stays) := by
  obtain ⟨_, first, rest, pieces, nonempty, notDot, notUp, silent⟩ := pieces_of_isPlainName plain
  refine ⟨(rest.filter (· ≠ [])).map PathStep.ofPiece, ?_, ?_⟩
  · intro step member
    obtain ⟨piece, kept, rfl⟩ := List.mem_map.1 member
    obtain ⟨inRest, proper⟩ := List.mem_filter.1 kept
    rcases silent piece inRest with rfl | rfl
    · simp at proper
    · rfl
  · rw [steps_of_pieces pieces nonempty, PathStep.ofPiece, if_neg notDot, if_neg notUp]
    cases Name.ofBytes? first with
    | some name => exact .inl ⟨name, rfl⟩
    | none => exact .inr rfl

/-- A plain name without a slash is the name itself, or no entry can have it. -/
theorem name_or_impossible {text : String} (plain : isPlainName text = true)
    (noSlash : '/' ∉ text.toList) :
    (∃ name : Name, Path.ofString text = name.toPath) ∨
      (Path.ofString text).steps = [.impossible] := by
  obtain ⟨_, first, rest, pieces, nonempty, notDot, notUp, _⟩ := pieces_of_isPlainName plain
  have bytes := slash_notMem noSlash
  obtain ⟨rfl, rfl⟩ := List.cons.inj ((Path.pieces_of_noSlash bytes).symm.trans pieces)
  exact Path.name_or_impossible bytes nonempty notDot notUp

theorem getLast?_intercalate_of_empty {first : Bytes} {rest : List Bytes} (proper : rest ≠ [])
    (empty : ∀ piece ∈ rest, piece = []) :
    ([Path.slash].intercalate (first :: rest)).getLast? = some Path.slash := by
  rw [List.intercalate_cons_of_ne_nil proper]
  induction rest generalizing first with
  | nil => exact absurd rfl proper
  | cons second rest ih =>
    obtain rfl := empty second List.mem_cons_self
    cases rest with
    | nil => simp
    | cons third rest =>
      have further : ([] ++ [Path.slash] ++ [Path.slash].intercalate (third :: rest)).getLast? =
          some Path.slash :=
        ih (by simp) fun piece member => empty piece (List.mem_cons_of_mem _ member)
      rw [List.intercalate_cons_of_ne_nil (by simp), List.getLast?_append_of_ne_nil _ (by simp)]
      exact further

/-- With a slash in it, a plain name is looked up as a directory if nothing follows the slash. -/
theorem endsWithSlash_of_slash {text : String} (plain : isPlainName text = true)
    (slash : '/' ∈ text.toList) {step : PathStep}
    (steps : (Path.ofString text).steps = [step]) : (Path.ofString text).endsWithSlash = true := by
  obtain ⟨_, first, rest, pieces, nonempty, _⟩ := pieces_of_isPlainName plain
  have inBytes : Path.slash ∈ (Path.ofString text).bytes :=
    List.mem_flatMap.2 ⟨'/', slash, by decide⟩
  have whole : [Path.slash].intercalate (first :: rest) = (Path.ofString text).bytes := by
    rw [← pieces]
    exact List.intercalate_splitOn _
  have proper : rest ≠ [] := by
    rintro rfl
    have inFirst : Path.slash ∈ first := by simpa [← whole] using inBytes
    have isPiece : first ∈ (Path.ofString text).bytes.splitOn Path.slash :=
      (congrArg (first ∈ ·) pieces).mpr List.mem_cons_self
    exact Path.slash_notMem_of_mem_splitOn isPiece inFirst
  have empty : ∀ piece ∈ rest, piece = [] := by
    intro piece member
    rw [steps_of_pieces pieces nonempty] at steps
    have nothing := List.map_eq_nil_iff.1 (List.cons.inj steps).2
    simpa using List.filter_eq_nil_iff.1 nothing piece member
  rw [Path.endsWithSlash, ← whole, getLast?_intercalate_of_empty proper empty]
  rfl

theorem name_ne_reserved (accepted : config.validate = .ok ()) {name entry : Name}
    (named : Path.ofString config.contextDirectory = name.toPath)
    (reserved : ∃ text ∈ Layout.reserved, Path.ofString text = entry.toPath) : name ≠ entry := by
  rintro rfl
  obtain ⟨text, member, isText⟩ := reserved
  have sameBytes := congrArg Path.bytes (named.trans isText.symm)
  have same : config.contextDirectory = text :=
    String.toList_injective (Utf8.encode_injective sameBytes)
  exact (of_validate accepted).2 (same ▸ member)

/-- A plain name that no entry can have is not found to be missing: it cannot be looked up. -/
theorem locate_impossible {text : String} (plain : isPlainName text = true)
    {stays : List PathStep} (steps : (Path.ofString text).steps = .impossible :: stays)
    {files : FileSystem} {source : Path} {directory : Location}
    (leads : files.Leads source (.present directory))
    (isDirectory : files.get? directory = some .directory) :
    ∃ fault, fault ≠ .notFound ∧
      files.locate .entry (source.join (Path.ofString text)) = .error fault := by
  have nonempty : (Path.ofString text).bytes ≠ [] := by
    intro empty
    rw [Path.steps_of_empty empty] at steps
    cases steps
  exact FileSystem.locate_entry_impossible leads isDirectory (pieces_of_isPlainName plain).1
    nonempty steps

/-- An entry of a directory can be called as the context directory is, and the path of the root
leaves room for it. -/
def Nameable (config : Config) : Prop :=
  (∃ name : Name, (Path.ofString config.contextDirectory).moves = [.enter name]) ∧
    (Path.ofString config.contextDirectory).bytes.length < FileSystem.pathLimit

theorem steps_of_nameable (accepted : config.validate = .ok ()) (nameable : config.Nameable) :
    ∃ (name : Name) (stays : List PathStep), (∀ step ∈ stays, step = PathStep.stay) ∧
      (Path.ofString config.contextDirectory).steps = .enter name :: stays := by
  obtain ⟨stays, still, ⟨name, steps⟩ | steps⟩ := steps_of_isPlainName (of_validate accepted).1
  · exact ⟨name, stays, still, steps⟩
  · obtain ⟨⟨name, moves⟩, _⟩ := nameable
    rw [Path.moves, steps] at moves
    cases moves

theorem name_of_nameable (accepted : config.validate = .ok ())
    (noSlash : '/' ∉ config.contextDirectory.toList) (nameable : config.Nameable) :
    ∃ name : Name, Path.ofString config.contextDirectory = name.toPath := by
  rcases name_or_impossible (of_validate accepted).1 noSlash with isName | steps
  · exact isName
  · obtain ⟨⟨name, moves⟩, _⟩ := nameable
    rw [Path.moves, steps] at moves
    cases moves

/-- A context directory that no entry can be called as is not found to be missing: it cannot be
looked up. -/
theorem locate_of_not_nameable (accepted : config.validate = .ok ())
    (unnameable : ¬ config.Nameable) {files : FileSystem} {source : Path} {directory : Location}
    (found : files.locate .target source = .ok directory)
    (isDirectory : files.get? directory = some .directory) :
    ∃ fault, fault ≠ .notFound ∧
      files.locate .entry (source.join (Path.ofString config.contextDirectory)) =
        .error fault := by
  have plain := (of_validate accepted).1
  obtain ⟨stays, still, ⟨name, steps⟩ | steps⟩ := steps_of_isPlainName plain
  · have nothing : stays.filter PathStep.isMove = [] := by
      refine List.filter_eq_nil_iff.2 fun step member => ?_
      rw [still step member]
      decide
    have long : FileSystem.pathLimit ≤ (Path.ofString config.contextDirectory).bytes.length := by
      by_contra short
      refine unnameable ⟨⟨name, ?_⟩, Nat.lt_of_not_le short⟩
      rw [Path.moves, steps, List.filter_cons_of_pos rfl, nothing]
    have nonempty := FileSystem.nonempty_of_locate found
    have tooLong : FileSystem.pathLimit <
        (source.join (Path.ofString config.contextDirectory)).bytes.length :=
      lt_of_le_of_lt long
        (Path.length_lt_length_join nonempty (pieces_of_isPlainName plain).1)
    exact FileSystem.locate_of_long tooLong
  · exact locate_impossible plain steps (FileSystem.leads_of_locate found) isDirectory

theorem zero_notMem {text : String} (plain : isPlainName text = true) {name : Name}
    {stays : List PathStep} (steps : (Path.ofString text).steps = .enter name :: stays) :
    (0 : UInt8) ∉ (Path.ofString text).bytes := by
  intro member
  obtain ⟨_, first, rest, pieces, nonempty, notDot, notUp, silent⟩ := pieces_of_isPlainName plain
  obtain ⟨piece, isPiece, inPiece⟩ := Path.exists_piece_of_mem member (by decide)
  rw [pieces] at isPiece
  rcases List.mem_cons.1 isPiece with rfl | inRest
  · rw [steps_of_pieces pieces nonempty, PathStep.ofPiece, if_neg notDot, if_neg notUp] at steps
    by_cases valid : Name.Valid piece
    · exact valid.2.2.2.1 inPiece
    · simp [Name.ofBytes?, valid] at steps
  · rcases silent piece inRest with rfl | rfl
    · cases inPiece
    · exact absurd inPiece (by decide)

end ImageStaging.Config
