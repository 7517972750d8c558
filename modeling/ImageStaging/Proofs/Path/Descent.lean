import ImageStaging.Proofs.Path.Moves

/-!
# Paths that lead down

A path descends from a base by names when its moves are those of the base and then the names. That
says where the path comes to as soon as it is known where the base does, whatever slashes and dots
the two are spelled with. A path leads another if it is a first part of it in the same sense, as the
parents of a path and theirs are.
-/

namespace ImageStaging.Path

/-- The path begins where the base begins, goes its way and then down by names. -/
structure Descends (base : Path) (names : List Name) (path : Path) : Prop where
  isAbsolute : path.isAbsolute = base.isAbsolute
  moves : path.moves = base.moves ++ names.map .enter

theorem enter_injective : Function.Injective PathStep.enter := fun _ _ same =>
  PathStep.enter.inj same

namespace Descends

variable {base path : Path} {names : List Name}

theorem refl (base : Path) : Descends base [] base := ⟨rfl, by simp⟩

theorem join (descends : Descends base names path) {more : Path} {rest : List Name}
    (relative : more.isAbsolute = false) (moves : more.moves = rest.map .enter) :
    Descends base (names ++ rest) (path.join more) :=
  ⟨(isAbsolute_join relative).trans descends.isAbsolute, by
    rw [moves_join relative, descends.moves, moves, List.map_append, List.append_assoc]⟩

theorem join_name (descends : Descends base names path) (name : Name) :
    Descends base (names ++ [name]) (path.join name.toPath) :=
  descends.join (by simp) (by simp)

theorem enters {name : Name} (descends : Descends base (names ++ [name]) path) :
    .enter name ∈ path.moves := by
  simp [descends.moves]

theorem bytes_ne_nil (descends : Descends base names path) (proper : names ≠ []) :
    path.bytes ≠ [] := by
  intro empty
  have moves := descends.moves
  rw [Path.moves_of_empty empty] at moves
  have noMoves := (List.append_eq_nil_iff.1 moves.symm).2
  exact proper (List.map_eq_nil_iff.1 noMoves)

/-- The parent of a path descends by one name less. -/
theorem parent {name : Name} (descends : Descends base (names ++ [name]) path) {above : Path}
    (found : path.parent? = some above) : Descends base names above := by
  have moves := descends.moves
  rw [List.map_append, ← List.append_assoc] at moves
  obtain ⟨isAbsolute, ⟨noMoves, _⟩ | ⟨last, moves'⟩⟩ := moves_parent? found
  · rw [moves] at noMoves
    simp at noMoves
  · refine ⟨isAbsolute.trans descends.isAbsolute, ?_⟩
    exact List.append_inj_left' (moves'.symm.trans moves) rfl

theorem startOf (descends : Descends base names path) (files : FileSystem) :
    files.startOf path = files.startOf base := by
  rw [FileSystem.startOf, FileSystem.startOf, descends.isAbsolute]

end Descends

/-- The path begins where the whole begins and takes some of its first moves. -/
structure Leading (path whole : Path) : Prop where
  isAbsolute : path.isAbsolute = whole.isAbsolute
  moves : path.moves <+: whole.moves

namespace Leading

variable {path above whole : Path}

theorem refl (whole : Path) : Leading whole whole := ⟨rfl, List.prefix_rfl⟩

theorem parent (leading : Leading path whole) (found : path.parent? = some above) :
    Leading above whole := by
  obtain ⟨isAbsolute, moves⟩ := moves_parent? found
  refine ⟨isAbsolute.trans leading.isAbsolute, List.IsPrefix.trans ?_ leading.moves⟩
  rcases moves with ⟨noMoves, none⟩ | ⟨last, moves⟩
  · exact none ▸ List.nil_prefix
  · exact moves ▸ List.prefix_append _ _

theorem startOf (leading : Leading path whole) (files : FileSystem) :
    files.startOf path = files.startOf whole := by
  rw [FileSystem.startOf, FileSystem.startOf, leading.isAbsolute]

end Leading

end ImageStaging.Path
