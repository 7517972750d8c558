import ImageStaging.Proofs.Text.Trimming
import ImageStaging.Variable.Table
import Mathlib.Data.List.Basic
import Mathlib.Data.List.Induction

/-!
# What a table gives of a name

Where several items may say something of a name, the last one that does decides. `LastGives` is that
rule for a list of items of any kind: the lines of a file, the fragments of a directory, the roots
of a build. It is proved of a table by going through the items from the front, each one put over
the ones before it.
-/

namespace ImageStaging

section LastGives

variable {ι κ α : Type} {gives : ι → α → Prop} {value : α}

/-- The last of the items that say anything gives this. -/
def LastGives (gives : ι → α → Prop) (items : List ι) (value : α) : Prop :=
  ∃ before item after, items = before ++ item :: after ∧ gives item value ∧
    ∀ later ∈ after, ∀ other, ¬ gives later other

theorem not_lastGives_nil : ¬ LastGives gives [] value := by
  rintro ⟨before, item, after, split, -⟩
  simp at split

/-- An item put behind the others has the last word, if it gives anything. -/
theorem lastGives_concat {items : List ι} {item : ι} :
    LastGives gives (items ++ [item]) value ↔
      gives item value ∨ (∀ other, ¬ gives item other) ∧ LastGives gives items value := by
  constructor
  · rintro ⟨before, decisive, after, split, said, silent⟩
    rcases List.eq_nil_or_concat' after with rfl | ⟨rest, final, rfl⟩
    · obtain ⟨rfl, same⟩ := List.append_inj' split rfl
      obtain rfl := List.singleton_inj.1 same
      exact .inl said
    · rw [← List.cons_append, ← List.append_assoc] at split
      obtain ⟨rfl, same⟩ := List.append_inj' split rfl
      obtain rfl := List.singleton_inj.1 same
      refine .inr ⟨silent item (by simp), before, decisive, rest, rfl, said, ?_⟩
      exact fun later member => silent later (by simp [member])
  · rintro (said | ⟨silent, before, decisive, after, rfl, said, others⟩)
    · exact ⟨items, item, [], rfl, said, by simp⟩
    · refine ⟨before, decisive, after ++ [item], by simp, said, ?_⟩
      intro later member
      rcases List.mem_append.1 member with inside | last
      · exact others later inside
      · exact List.mem_singleton.1 last ▸ silent

/-- What the last of them gives is given by one of them. -/
theorem LastGives.given {items : List ι} (last : LastGives gives items value) :
    ∃ item ∈ items, gives item value := by
  obtain ⟨before, item, after, rfl, said, -⟩ := last
  exact ⟨item, by simp, said⟩

/-- Where one of the items says anything, some item is the last to do so. -/
theorem exists_lastGives {items : List ι} {item : ι} (member : item ∈ items)
    (said : gives item value) : ∃ last, LastGives gives items last := by
  induction items using List.reverseRecOn with
  | nil => cases member
  | append_singleton items final ih =>
    simp only [lastGives_concat]
    by_cases speaks : ∃ word, gives final word
    · obtain ⟨word, spoken⟩ := speaks
      exact ⟨word, .inl spoken⟩
    · have silent : ∀ other, ¬ gives final other := not_exists.1 speaks
      rcases List.mem_append.1 member with inside | atEnd
      · obtain ⟨last, earlier⟩ := ih inside
        exact ⟨last, .inr ⟨silent, earlier⟩⟩
      · obtain rfl := List.mem_singleton.1 atEnd
        exact absurd said (silent value)

theorem lastGives_congr {items : List ι} {alike : ι → α → Prop}
    (same : ∀ item ∈ items, ∀ value, gives item value ↔ alike item value) :
    LastGives gives items value ↔ LastGives alike items value := by
  induction items using List.reverseRecOn with
  | nil => simp only [not_lastGives_nil]
  | append_singleton items item ih =>
    have here := same item (by simp)
    rw [lastGives_concat, lastGives_concat, ih fun other member => same other (by simp [member])]
    simp only [here]

theorem lastGives_filterMap {items : List κ} {pick : κ → Option ι} :
    LastGives gives (items.filterMap pick) value ↔
      LastGives (fun item said => ∃ picked, pick item = some picked ∧ gives picked said) items
        value := by
  induction items using List.reverseRecOn with
  | nil => simp only [List.filterMap_nil, not_lastGives_nil]
  | append_singleton items item ih =>
    rw [List.filterMap_append, lastGives_concat, ← ih]
    cases picked : pick item with
    | none => simp [picked]
    | some chosen => simp [picked, lastGives_concat]

/-- Among items in order, the last one to say anything is the greatest one to do so. -/
theorem lastGives_iff_greatest {le : ι → ι → Prop} (antisymm : ∀ a b, le a b → le b a → a = b)
    (refl : ∀ a, le a a) {items : List ι} (sorted : items.Pairwise le) :
    LastGives gives items value ↔
      ∃ item ∈ items, gives item value ∧
        ∀ other ∈ items, (∃ said, gives other said) → le other item := by
  induction items using List.reverseRecOn with
  | nil => simp [not_lastGives_nil]
  | append_singleton items item ih =>
    obtain ⟨front, -, below⟩ := List.pairwise_append.1 sorted
    have under : ∀ other ∈ items ++ [item], le other item := by
      intro other member
      rcases List.mem_append.1 member with inside | last
      · exact below other inside item (List.mem_singleton_self item)
      · exact List.mem_singleton.1 last ▸ refl item
    rw [lastGives_concat]
    constructor
    · rintro (said | ⟨silent, earlier⟩)
      · exact ⟨item, by simp, said, fun other member _ => under other member⟩
      · obtain ⟨decisive, member, said, greatest⟩ := (ih front).1 earlier
        refine ⟨decisive, by simp [member], said, fun other within speaks => ?_⟩
        rcases List.mem_append.1 within with inside | last
        · exact greatest other inside speaks
        · obtain ⟨word, spoken⟩ := List.mem_singleton.1 last ▸ speaks
          exact absurd spoken (silent word)
    · rintro ⟨decisive, member, said, greatest⟩
      by_cases speaks : ∃ word, gives item word
      · -- the greatest is the very last item, as both are above each other
        have same : decisive = item :=
          antisymm _ _ (under decisive member) (greatest item (by simp) speaks)
        exact .inl (same ▸ said)
      · refine .inr ⟨fun word spoken => speaks ⟨word, spoken⟩, (ih front).2 ?_⟩
        rcases List.mem_append.1 member with inside | last
        · exact ⟨decisive, inside, said, fun other within => greatest other (by simp [within])⟩
        · exact absurd ⟨value, List.mem_singleton.1 last ▸ said⟩ speaks

end LastGives

/-! ## Flat files -/

/-- A line gives a name a value: the name stands before its first colon and the value behind it. -/
def LineDefines (line name value : Text) : Prop :=
  ∃ front back, line = front ++ ':' :: back ∧ ':' ∉ front ∧ Text.trim front = name ∧
    Text.trim back = value

/-- The lines of a text, and the last one to give a name a value gives it this one. -/
def LinesDefine (content name value : Text) : Prop :=
  LastGives (fun line => LineDefines line name) (content.splitOn '\n') value

section Lines

variable {name value : Text}

theorem lineDefines_cons {c : Char} (blank : Text.isBlank c = true) (line : Text) :
    LineDefines (c :: line) name value ↔ LineDefines line name value := by
  constructor
  · rintro ⟨front, back, split, noColon, rfl, rfl⟩
    cases front with
    | nil =>
      obtain ⟨rfl, -⟩ := List.cons.inj split
      simp [Text.isBlank] at blank
    | cons d front =>
      obtain ⟨rfl, rfl⟩ := List.cons.inj split
      have noColonBehind : ':' ∉ front := fun inside => noColon (List.mem_cons_of_mem c inside)
      exact ⟨front, back, rfl, noColonBehind, (Text.trim_cons_of_isBlank blank front).symm, rfl⟩
  · rintro ⟨front, back, rfl, noColon, rfl, rfl⟩
    have noColonHere : ':' ∉ c :: front := by
      rintro (_ | ⟨_, inside⟩)
      · simp [Text.isBlank] at blank
      · exact noColon inside
    exact ⟨c :: front, back, rfl, noColonHere, Text.trim_cons_of_isBlank blank front, rfl⟩

theorem lineDefines_concat {c : Char} (blank : Text.isBlank c = true) (line : Text) :
    LineDefines (line ++ [c]) name value ↔ LineDefines line name value := by
  constructor
  · rintro ⟨front, back, split, noColon, rfl, rfl⟩
    rcases List.eq_nil_or_concat' back with rfl | ⟨back, last, rfl⟩
    · obtain ⟨-, same⟩ := List.append_inj' split rfl
      obtain rfl := List.singleton_inj.1 same
      simp [Text.isBlank] at blank
    · rw [← List.cons_append, ← List.append_assoc] at split
      obtain ⟨rfl, same⟩ := List.append_inj' split rfl
      obtain rfl := List.singleton_inj.1 same
      exact ⟨front, back, rfl, noColon, rfl, (Text.trim_concat_of_isBlank blank back).symm⟩
  · rintro ⟨front, back, rfl, noColon, rfl, rfl⟩
    exact ⟨front, back ++ [c], by simp, noColon, rfl, Text.trim_concat_of_isBlank blank back⟩

theorem lineDefines_trim (line : Text) :
    LineDefines (Text.trim line) name value ↔ LineDefines line name value :=
  Text.iff_trim (fun line => LineDefines line name value)
    (fun _ text blank => lineDefines_cons blank text)
    (fun _ text blank => lineDefines_concat blank text) line

/-- What a line defines, if anything: the name before its first colon with the value behind it. -/
def lineDefinition? (line : Text) : Option (Text × Text) :=
  (Text.splitFirst ':' line).map fun (front, back) => (Text.trim front, Text.trim back)

theorem lineDefinition?_eq_some {line : Text} :
    lineDefinition? line = some (name, value) ↔ LineDefines line name value := by
  simp only [lineDefinition?, Option.map_eq_some_iff, Prod.exists, Text.splitFirst_eq_some,
    Prod.mk.injEq, LineDefines, and_assoc]

/-- Lines that define the same have the same definition. -/
theorem lineDefinition?_congr {line other : Text}
    (same : ∀ name value, LineDefines line name value ↔ LineDefines other name value) :
    lineDefinition? line = lineDefinition? other := by
  refine Option.ext fun ⟨name, value⟩ => ?_
  rw [lineDefinition?_eq_some, lineDefinition?_eq_some, same]

theorem lineDefinition?_cons {c : Char} (blank : Text.isBlank c = true) (line : Text) :
    lineDefinition? (c :: line) = lineDefinition? line :=
  lineDefinition?_congr fun _ _ => lineDefines_cons blank line

theorem lineDefinition?_concat {c : Char} (blank : Text.isBlank c = true) (line : Text) :
    lineDefinition? (line ++ [c]) = lineDefinition? line :=
  lineDefinition?_congr fun _ _ => lineDefines_concat blank line

theorem lineDefinition?_trim (line : Text) :
    lineDefinition? (Text.trim line) = lineDefinition? line :=
  lineDefinition?_congr fun _ _ => lineDefines_trim line

/-- What the lines of a text define, in their order. -/
def lineDefinitions (content : Text) : List (Text × Text) :=
  (content.splitOn '\n').filterMap lineDefinition?

theorem lineDefinitions_cons {c : Char} (blank : Text.isBlank c = true) (content : Text) :
    lineDefinitions (c :: content) = lineDefinitions content := by
  obtain ⟨head, tail, lines⟩ := List.exists_cons_of_ne_nil (List.splitOn_ne_nil '\n' content)
  rw [lineDefinitions, lineDefinitions, List.splitOn_cons_eq_if_modifyHead, lines]
  split
  · rfl
  · rw [List.modifyHead_cons, List.filterMap_cons, List.filterMap_cons, lineDefinition?_cons blank]

/-- A character behind a text goes to the end of its last line, unless it ends that line. -/
theorem splitOn_concat (separator c : Char) (content : Text) :
    ∃ front last, content.splitOn separator = front ++ [last] ∧
      (content ++ [c]).splitOn separator =
        front ++ if c = separator then [last, []] else [last ++ [c]] := by
  induction content with
  | nil =>
    refine ⟨[], [], rfl, ?_⟩
    rw [List.nil_append, List.splitOn_cons_eq_if_modifyHead]
    split <;> simp_all
  | cons d content ih =>
    obtain ⟨front, last, lines, further⟩ := ih
    rw [List.cons_append, List.splitOn_cons_eq_if_modifyHead,
      List.splitOn_cons_eq_if_modifyHead, lines, further]
    by_cases ends : (d == separator) = true
    · exact ⟨[] :: front, last, by simp [ends], by simp [ends]⟩
    · cases front with
      | nil =>
        refine ⟨[], d :: last, by simp [ends], ?_⟩
        rw [if_neg ends]
        by_cases closes : c = separator <;> simp [closes]
      | cons first front => exact ⟨(d :: first) :: front, last, by simp [ends], by simp [ends]⟩

theorem lineDefinitions_concat {c : Char} (blank : Text.isBlank c = true) (content : Text) :
    lineDefinitions (content ++ [c]) = lineDefinitions content := by
  obtain ⟨front, last, lines, further⟩ := splitOn_concat '\n' c content
  rw [lineDefinitions, lineDefinitions, lines, further, List.filterMap_append,
    List.filterMap_append]
  split
  · rfl
  · rw [List.filterMap_cons, List.filterMap_cons, lineDefinition?_concat blank]

theorem lineDefinitions_trim (content : Text) :
    lineDefinitions (Text.trim content) = lineDefinitions content :=
  (Text.iff_trim (fun text => lineDefinitions text = lineDefinitions content)
    (fun _ text blank => by rw [lineDefinitions_cons blank text])
    (fun _ text blank => by rw [lineDefinitions_concat blank text]) content).2 rfl

theorem lineDefinitions_append (front back : Text) :
    lineDefinitions (front ++ '\n' :: back) = lineDefinitions front ++ lineDefinitions back := by
  rw [lineDefinitions, List.splitOn_append_cons_self, List.filterMap_append]
  rfl

theorem lineDefinitions_of_line {line : Text} (within : '\n' ∉ line) :
    lineDefinitions line = (lineDefinition? line).toList := by
  rw [lineDefinitions, List.splitOn_eq_singleton within]
  cases defined : lineDefinition? line <;> simp [defined]

theorem linesDefine_iff {content : Text} :
    LinesDefine content name value ↔
      LastGives (fun definition said => definition = (name, said)) (lineDefinitions content)
        value := by
  rw [LinesDefine, lineDefinitions, lastGives_filterMap]
  refine lastGives_congr fun line _ said => ?_
  simp only [exists_eq_right, lineDefinition?_eq_some]

end Lines

namespace VariableTable

@[simp] theorem get?_empty (name : Text) : empty.get? name = none := rfl

theorem ofList_concat (pairs : List (Text × Text)) (pair : Text × Text) :
    ofList (pairs ++ [pair]) = (ofList pairs).insert pair.1 pair.2 := by
  simp [ofList]

theorem get?_ofList {pairs : List (Text × Text)} {name value : Text} :
    (ofList pairs).get? name = some value ↔
      LastGives (fun pair said => Text.trim pair.1 = name ∧ Text.trim pair.2 = said) pairs
        value := by
  induction pairs using List.reverseRecOn with
  | nil => simp [ofList, not_lastGives_nil]
  | append_singleton pairs pair ih =>
    rw [ofList_concat, get?_insert, lastGives_concat, ← ih]
    by_cases same : name = Text.trim pair.1
    · simp [same]
    · simp [same, Ne.symm same]

/-! ## Merging -/

/-- The table in which a name has no value. -/
def without (table : VariableTable) (name : Text) : VariableTable :=
  ⟨table.entries.filter fun entry => decide (entry.1 ≠ name)⟩

theorem set_eq (table : VariableTable) (name value : Text) :
    table.set name value = ⟨(name, value) :: (table.without name).entries⟩ := rfl

theorem without_set_self (table : VariableTable) (name value : Text) :
    (table.set name value).without name = table.without name := by
  simp [without, set, Association.put]

theorem without_set_of_ne (table : VariableTable) {name key : Text} (differ : key ≠ name)
    (value : Text) : (table.set key value).without name = (table.without name).set key value := by
  simp [without, set, Association.put, differ, Bool.and_comm]

/-- A value set in the table that is put over another one is set in the end. -/
theorem merge_set (table other : VariableTable) (name value : Text) :
    table.merge (other.set name value) = (table.merge other).set name value := by
  obtain ⟨entries⟩ := other
  have rest : (table.merge (without ⟨entries⟩ name)).without name =
      (table.merge ⟨entries⟩).without name := by
    induction entries with
    | nil => rfl
    | cons entry entries ih =>
      obtain ⟨key, word⟩ := entry
      have step : table.merge ⟨(key, word) :: entries⟩ = (table.merge ⟨entries⟩).set key word := rfl
      by_cases same : key = name
      · have dropped : without ⟨(key, word) :: entries⟩ name = without ⟨entries⟩ name := by
          simp [without, same]
        rw [dropped, ih, step, same, without_set_self]
      · have kept : table.merge (without ⟨(key, word) :: entries⟩ name) =
            (table.merge (without ⟨entries⟩ name)).set key word := by
          simp [without, same, merge]
        rw [kept, step, without_set_of_ne _ same, without_set_of_ne _ same, ih]
  show (table.merge (without ⟨entries⟩ name)).set name value = _
  rw [set_eq, set_eq, rest]

/-- Pairs collected after others are put over them. -/
theorem ofList_append (pairs further : List (Text × Text)) :
    ofList (pairs ++ further) = (ofList pairs).merge (ofList further) := by
  induction further using List.reverseRecOn with
  | nil => rw [List.append_nil]; rfl
  | append_singleton further pair ih =>
    rw [← List.append_assoc, ofList_concat, ofList_concat, ih, insert, insert, merge_set]

/-! ## Definitions in the lines of a file -/

theorem insert_trim (table : VariableTable) (name value : Text) :
    table.insert (Text.trim name) (Text.trim value) = table.insert name value := by
  simp only [insert, Text.trim_trim]

/-- Pairs may be trimmed before they are collected. -/
theorem ofList_map_trim (pairs : List (Text × Text)) :
    ofList (pairs.map fun (name, value) => (Text.trim name, Text.trim value)) = ofList pairs := by
  simp only [ofList, List.foldl_map, insert_trim]

/-- The table of a flat file holds the definitions of its lines that have a name. -/
theorem parseFlat_eq (content : Text) :
    parseFlat content =
      ofList ((lineDefinitions content).filter fun definition => definition.1 ≠ []) := by
  rw [← lineDefinitions_trim, lineDefinitions, List.filter_filterMap, parseFlat,
    ← ofList_map_trim, List.map_filterMap, Text.fields]
  congr 2
  funext line
  rw [← lineDefinition?_trim, lineDefinition?]
  cases Text.splitFirst ':' (Text.trim line) with
  | none => rfl
  | some halves =>
    by_cases nameless : Text.trim halves.1 = [] <;> simp [Option.filter_some, nameless]

/-- Reading a text behind another one puts its table over the other's. -/
theorem parseFlat_append (front back : Text) :
    parseFlat (front ++ '\n' :: back) = (parseFlat front).merge (parseFlat back) := by
  rw [parseFlat_eq, parseFlat_eq, parseFlat_eq, lineDefinitions_append, List.filter_append,
    ofList_append]

theorem trim_of_mem_lineDefinitions {content name value : Text}
    (member : (name, value) ∈ lineDefinitions content) :
    Text.trim name = name ∧ Text.trim value = value := by
  obtain ⟨line, -, defined⟩ := List.mem_filterMap.1 member
  obtain ⟨front, back, -, -, rfl, rfl⟩ := lineDefinition?_eq_some.1 defined
  exact ⟨Text.trim_trim front, Text.trim_trim back⟩

/-- A flat file gives a name what its lines as they stand give it; there is no empty name. -/
theorem get?_parseFlat {content name value : Text} :
    (parseFlat content).get? name = some value ↔ name ≠ [] ∧ LinesDefine content name value := by
  have alike : ∀ definition ∈ lineDefinitions content, ∀ said,
      (∃ kept, Option.guard (fun definition : Text × Text => definition.1 ≠ []) definition =
          some kept ∧ Text.trim kept.1 = name ∧ Text.trim kept.2 = said) ↔
        name ≠ [] ∧ definition = (name, said) := by
    rintro ⟨own, text⟩ member said
    obtain ⟨ownTrimmed, textTrimmed⟩ := trim_of_mem_lineDefinitions member
    constructor
    · rintro ⟨kept, guarded, rfl, rfl⟩
      obtain ⟨rfl, named⟩ := Option.guard_eq_some_iff.1 guarded
      rw [ownTrimmed, textTrimmed]
      exact ⟨of_decide_eq_true named, rfl⟩
    · rintro ⟨named, same⟩
      obtain ⟨rfl, rfl⟩ := Prod.mk.inj same
      exact ⟨(own, text), Option.guard_eq_some_iff.2 ⟨rfl, decide_eq_true named⟩, ownTrimmed,
        textTrimmed⟩
  rw [parseFlat_eq, get?_ofList, ← List.filterMap_eq_filter, lastGives_filterMap,
    lastGives_congr alike, linesDefine_iff]
  by_cases empty : name = []
  · simp [empty, LastGives]
  · simp [empty]

end VariableTable

end ImageStaging
