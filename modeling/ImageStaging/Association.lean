/-!
# Association lists

A list of keys with values answers for a key with its first entry. Keeping only some of the keys
answers alike for those keys and not at all for the others.
-/

namespace ImageStaging.Association

variable {κ α : Type} [DecidableEq κ] [BEq κ] [LawfulBEq κ]

theorem lookup_filter (keep : κ → Bool) (entries : List (κ × α)) (key : κ) :
    (entries.filter fun entry => keep entry.1).lookup key =
      if keep key then entries.lookup key else none := by
  induction entries with
  | nil => simp
  | cons entry rest ih =>
    obtain ⟨other, value⟩ := entry
    by_cases hKey : key = other
    · subst hKey
      by_cases hKeep : keep key = true
      · simp [hKeep]
      · simp [hKeep, ih]
    · have hBeq : (key == other) = false := by simp [hKey]
      by_cases hKeep : keep other = true
      · simp [hKeep, List.lookup_cons, hBeq, ih]
      · simp [hKeep, List.lookup_cons, hBeq, ih]

/-- The entries with one for a key put before those of the other keys. -/
def put (entries : List (κ × α)) (key : κ) (value : α) : List (κ × α) :=
  (key, value) :: entries.filter fun entry => decide (entry.1 ≠ key)

theorem lookup_put (entries : List (κ × α)) (key : κ) (value : α) (other : κ) :
    (put entries key value).lookup other =
      if other = key then some value else entries.lookup other := by
  by_cases hOther : other = key
  · subst hOther
    simp [put]
  · have hBeq : (other == key) = false := by simp [hOther]
    simp only [put, List.lookup_cons, hBeq, hOther, if_false,
      lookup_filter (fun candidate => decide (candidate ≠ key))]
    simp [hOther]

omit [BEq κ] [LawfulBEq κ] in
theorem nodup_put {entries : List (κ × α)} (h : (entries.map Prod.fst).Nodup) (key : κ)
    (value : α) : ((put entries key value).map Prod.fst).Nodup := by
  simp only [put, List.map_cons, List.nodup_cons]
  constructor
  · simp
  · exact h.sublist (List.filter_sublist.map Prod.fst)

omit [DecidableEq κ] in
/-- Where no key occurs twice, every entry is the one that its key is answered with. -/
theorem lookup_of_mem {entries : List (κ × α)} (distinct : (entries.map Prod.fst).Nodup)
    {entry : κ × α} (member : entry ∈ entries) : entries.lookup entry.1 = some entry.2 := by
  obtain ⟨front, back, rfl⟩ := List.append_of_mem member
  rw [List.map_append, List.map_cons, List.nodup_append] at distinct
  rw [List.lookup_eq_some_iff]
  refine ⟨front, back, rfl, fun other before => ?_⟩
  have differ : other.1 ≠ entry.1 :=
    distinct.2.2 other.1 (List.mem_map_of_mem before) entry.1 List.mem_cons_self
  simpa using differ.symm

end ImageStaging.Association
