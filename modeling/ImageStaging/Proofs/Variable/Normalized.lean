import ImageStaging.Proofs.Variable.Table

/-!
# Normalized tables

Only putting a name into a table trims anything. Putting one table over another moves entries as
they are, and a lookup asks for a name as it is. That is sound as long as a table is normalized: it
has one entry for each of its names, and it answers for the names that it was given, and for them
only, each without the blanks around it. All ways of making a table without reading any file keep
this; from it follows that no entry has a blank at an end of its name or its value.
-/

namespace ImageStaging.VariableTable

/-- Something is given that is this name with this value, up to the blanks around both. -/
def Told (gives : Text → Text → Prop) (name value : Text) : Prop :=
  ∃ raw text, gives raw text ∧ Text.trim raw = name ∧ Text.trim text = value

section Told

variable {gives more : Text → Text → Prop} {name value : Text}

theorem told_of_gives {raw text : Text} (given : gives raw text) :
    Told gives (Text.trim raw) (Text.trim text) :=
  ⟨raw, text, given, rfl, rfl⟩

theorem told_or : Told (fun raw text => gives raw text ∨ more raw text) name value ↔
    Told gives name value ∨ Told more name value := by
  constructor
  · rintro ⟨raw, text, given | given, named, valued⟩
    · exact .inl ⟨raw, text, given, named, valued⟩
    · exact .inr ⟨raw, text, given, named, valued⟩
  · rintro (⟨raw, text, given, named, valued⟩ | ⟨raw, text, given, named, valued⟩)
    · exact ⟨raw, text, .inl given, named, valued⟩
    · exact ⟨raw, text, .inr given, named, valued⟩

theorem told_single {raw text : Text} :
    Told (fun other word => other = raw ∧ word = text) name value ↔
      Text.trim raw = name ∧ Text.trim text = value := by
  constructor
  · rintro ⟨_, _, ⟨rfl, rfl⟩, named, valued⟩
    exact ⟨named, valued⟩
  · rintro ⟨named, valued⟩
    exact ⟨raw, text, ⟨rfl, rfl⟩, named, valued⟩

end Told

/-- No name has two entries. -/
def Distinct (table : VariableTable) : Prop :=
  (table.entries.map Prod.fst).Nodup

theorem distinct_empty : empty.Distinct :=
  List.nodup_nil

theorem Distinct.set {table : VariableTable} (distinct : table.Distinct) (name value : Text) :
    (table.set name value).Distinct :=
  Association.nodup_put distinct name value

theorem Distinct.insert {table : VariableTable} (distinct : table.Distinct) (name value : Text) :
    (table.insert name value).Distinct :=
  distinct.set (Text.trim name) (Text.trim value)

theorem Distinct.merge {table : VariableTable} (distinct : table.Distinct) (other : VariableTable) :
    (table.merge other).Distinct := by
  obtain ⟨entries⟩ := other
  induction entries with
  | nil => exact distinct
  | cons entry entries ih => exact ih.set entry.1 entry.2

theorem distinct_ofList (pairs : List (Text × Text)) : (ofList pairs).Distinct := by
  induction pairs using List.reverseRecOn with
  | nil => exact distinct_empty
  | append_singleton pairs pair ih =>
    rw [ofList_concat]
    exact ih.insert pair.1 pair.2

theorem distinct_parseFlat (content : Text) : (parseFlat content).Distinct :=
  distinct_ofList _

theorem Distinct.get?_of_mem {table : VariableTable} (distinct : table.Distinct)
    {entry : Text × Text} (member : entry ∈ table.entries) :
    table.get? entry.1 = some entry.2 :=
  Association.lookup_of_mem distinct member

/-- A table has one entry for each of its names, and the names that it answers for are those that it
was given. -/
structure Normalized (table : VariableTable) (gives : Text → Text → Prop) : Prop where
  distinct : table.Distinct
  told : ∀ name value, table.get? name = some value → Told gives name value
  answered : ∀ name value, Told gives name value → (table.get? name).isSome

namespace Normalized

variable {table other : VariableTable} {gives more : Text → Text → Prop}

/-! ## What holds of a normalized table -/

theorem told_of_mem (normalized : Normalized table gives) {entry : Text × Text}
    (member : entry ∈ table.entries) : Told gives entry.1 entry.2 :=
  normalized.told entry.1 entry.2 (normalized.distinct.get?_of_mem member)

theorem trim_of_mem (normalized : Normalized table gives) {entry : Text × Text}
    (member : entry ∈ table.entries) :
    Text.trim entry.1 = entry.1 ∧ Text.trim entry.2 = entry.2 := by
  obtain ⟨raw, text, -, named, valued⟩ := normalized.told_of_mem member
  rw [← named, ← valued, Text.trim_trim, Text.trim_trim]
  exact ⟨rfl, rfl⟩

theorem trim_of_get? (normalized : Normalized table gives) {name value : Text}
    (found : table.get? name = some value) : Text.trim value = value := by
  obtain ⟨raw, text, -, -, rfl⟩ := normalized.told name value found
  exact Text.trim_trim text

theorem isSome_get? (normalized : Normalized table gives) (name : Text) :
    (table.get? name).isSome ↔ ∃ raw text, gives raw text ∧ Text.trim raw = name := by
  constructor
  · intro found
    obtain ⟨value, answer⟩ := Option.isSome_iff_exists.1 found
    obtain ⟨raw, text, given, named, -⟩ := normalized.told name value answer
    exact ⟨raw, text, given, named⟩
  · rintro ⟨raw, text, given, rfl⟩
    exact normalized.answered _ _ (told_of_gives given)

/-! ## What keeps a table normalized -/

theorem congr (normalized : Normalized table gives)
    (same : ∀ raw text, gives raw text ↔ more raw text) : Normalized table more := by
  have equal : gives = more := funext fun raw => funext fun text => propext (same raw text)
  exact equal ▸ normalized

theorem insert (normalized : Normalized table gives) (name value : Text) :
    Normalized (table.insert name value) fun raw text =>
      gives raw text ∨ raw = name ∧ text = value where
  distinct := normalized.distinct.insert name value
  told key word found := by
    rw [told_or, told_single]
    rw [get?_insert] at found
    split at found
    · next same => exact .inr ⟨same.symm, Option.some.inj found⟩
    · exact .inl (normalized.told key word found)
  answered key word told := by
    rw [told_or, told_single] at told
    rw [get?_insert]
    split
    · rfl
    · next differ =>
      rcases told with earlier | ⟨named, -⟩
      · exact normalized.answered key word earlier
      · exact absurd named.symm differ

theorem merge (normalized : Normalized table gives) (laid : Normalized other more) :
    Normalized (table.merge other) fun raw text => gives raw text ∨ more raw text where
  distinct := normalized.distinct.merge other
  told name value found := by
    rw [get?_merge, Option.or_eq_some_iff] at found
    rw [told_or]
    rcases found with above | ⟨-, below⟩
    · exact .inr (laid.told name value above)
    · exact .inl (normalized.told name value below)
  answered name value told := by
    rw [told_or] at told
    rw [get?_merge, Option.isSome_or, Bool.or_eq_true]
    rcases told with below | above
    · exact .inr (normalized.answered name value below)
    · exact .inl (laid.answered name value above)

/-- Where the last of some items decides the value of each name but the empty one, the table is
normalized if these items are what it was given. -/
theorem of_lastGives {ι : Type} {tells : Text → ι → Text → Prop} {items : List ι}
    (distinct : table.Distinct)
    (answers : ∀ name value, table.get? name = some value ↔
      name ≠ [] ∧ LastGives (tells name) items value)
    (given : ∀ name value, Told gives name value ↔
      name ≠ [] ∧ ∃ item ∈ items, tells name item value) :
    Normalized table gives where
  distinct := distinct
  told name value found := by
    obtain ⟨proper, last⟩ := (answers name value).1 found
    exact (given name value).2 ⟨proper, last.given⟩
  answered name value told := by
    obtain ⟨proper, item, member, said⟩ := (given name value).1 told
    obtain ⟨word, last⟩ := exists_lastGives member said
    rw [(answers name word).2 ⟨proper, last⟩]
    rfl

end Normalized

theorem normalized_empty : Normalized empty fun _ _ => False where
  distinct := distinct_empty
  told name value found := nomatch found
  answered := by
    rintro name value ⟨raw, text, given, -⟩
    exact given.elim

theorem normalized_ofList (pairs : List (Text × Text)) :
    Normalized (ofList pairs) fun raw text => (raw, text) ∈ pairs := by
  induction pairs using List.reverseRecOn with
  | nil => exact normalized_empty.congr fun raw text => by simp
  | append_singleton pairs pair ih =>
    rw [ofList_concat]
    apply (ih.insert pair.1 pair.2).congr
    intro raw text
    rw [List.mem_append, List.mem_singleton, Prod.ext_iff]

/-- A line of the content gives what stands before its first colon, if that is not blank, the value
behind the colon. -/
def ContentGives (content raw text : Text) : Prop :=
  raw ++ ':' :: text ∈ content.splitOn '\n' ∧ ':' ∉ raw ∧ Text.trim raw ≠ []

theorem told_content {content name value : Text} :
    Told (ContentGives content) name value ↔
      name ≠ [] ∧ ∃ line ∈ content.splitOn '\n', LineDefines line name value := by
  constructor
  · rintro ⟨raw, text, ⟨member, noColon, proper⟩, rfl, rfl⟩
    exact ⟨proper, raw ++ ':' :: text, member, raw, text, rfl, noColon, rfl, rfl⟩
  · rintro ⟨proper, _, member, raw, text, rfl, noColon, rfl, rfl⟩
    exact ⟨raw, text, ⟨member, noColon, proper⟩, rfl, rfl⟩

theorem normalized_parseFlat (content : Text) :
    Normalized (parseFlat content) (ContentGives content) :=
  .of_lastGives (distinct_parseFlat content) (fun _ _ => get?_parseFlat) fun _ _ => told_content

end ImageStaging.VariableTable
