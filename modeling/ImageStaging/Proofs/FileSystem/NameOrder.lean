import ImageStaging.FileSystem.Basic
import Mathlib.Data.List.Sort

/-!
# The order of names

Names are read in the order of their bytes, which is linear. So sorting a listing depends on what
is listed only, not on the order in which a directory happened to list it.
-/

namespace ImageStaging.Name

theorem le_iff {first second : Name} : first.le second = true ↔ first.bytes ≤ second.bytes :=
  decide_eq_true_iff

theorem le_refl (name : Name) : name.le name = true :=
  le_iff.2 (List.le_refl name.bytes)

theorem le_trans (first second third : Name) (lower : first.le second = true)
    (upper : second.le third = true) : first.le third = true :=
  le_iff.2 (List.le_trans (le_iff.1 lower) (le_iff.1 upper))

theorem le_total (first second : Name) : (first.le second || second.le first) = true := by
  rw [Bool.or_eq_true, le_iff, le_iff]
  exact List.le_total first.bytes second.bytes

theorem le_antisymm (first second : Name) (below : first.le second = true)
    (above : second.le first = true) : first = second := by
  have same : first.bytes = second.bytes := List.le_antisymm (le_iff.1 below) (le_iff.1 above)
  obtain ⟨bytes, valid⟩ := first
  obtain ⟨bytes', valid'⟩ := second
  exact (Name.mk.injEq ..).mpr same

theorem pairwise_sorted (listing : List Name) :
    (listing.mergeSort le).Pairwise fun first second => first.le second = true :=
  List.pairwise_mergeSort le_trans le_total listing

/-- Of the names in a listing, all that do not come before one are above it. -/
theorem before_or_le_of_sorted {listing before rest : List Name} {name other : Name}
    (split : listing.mergeSort le = before ++ name :: rest) (member : other ∈ listing) :
    other ∈ before ∨ name.le other = true := by
  have ordered := pairwise_sorted listing
  have within : other ∈ listing.mergeSort le := List.mem_mergeSort.2 member
  rw [split] at ordered within
  rcases List.mem_append.1 within with inside | here
  · exact .inl inside
  · rcases List.mem_cons.1 here with rfl | behind
    · exact .inr (le_refl other)
    · exact .inr (List.rel_of_pairwise_cons (List.pairwise_append.1 ordered).2.1 behind)

/-- Listings of the same names are read in the same order. -/
theorem mergeSort_eq_of_perm {listing other : List Name} (perm : listing.Perm other) :
    listing.mergeSort le = other.mergeSort le := by
  have sorted : (listing.mergeSort le).Perm (other.mergeSort le) :=
    (List.mergeSort_perm listing le).trans (perm.trans (List.mergeSort_perm other le).symm)
  refine sorted.eq_of_pairwise ?_ (pairwise_sorted listing) (pairwise_sorted other)
  exact fun first second _ _ => le_antisymm first second

end ImageStaging.Name
