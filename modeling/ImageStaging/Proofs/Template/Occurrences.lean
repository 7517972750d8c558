import ImageStaging.Proofs.Template.Pieces
import Mathlib.Data.List.Induction
import Mathlib.Data.List.Sort

/-!
# Where placeholders are found

Placeholders can overlap in a text, as two that share their marks do, and a scan takes only some of
them. `Finds` says which without a scan: those taken lie one behind the other, and whatever else
reads as a placeholder overlaps one that begins before it. There is exactly one such list for a
text, and the references of the text are its different placeholders in the order of their first
occurrences.
-/

namespace ImageStaging.Template

/-- A part of a text that reads as a placeholder, by how much text stands before it and by what is
inside. -/
structure Occurrence where
  start : Nat
  inner : Text
  deriving DecidableEq, Repr

def Occurrence.text (kind : Kind) (occurrence : Occurrence) : Text :=
  placeholderText kind occurrence.inner

variable {kind : Kind} {text inner front : Text} {c : Char}

namespace Occurrence

variable {occurrence other : Occurrence}

/-- How much text stands before its end. -/
def stop (kind : Kind) (occurrence : Occurrence) : Nat :=
  occurrence.start + (occurrence.text kind).length

/-- The text reads so in this place. -/
def In (kind : Kind) (text : Text) (occurrence : Occurrence) : Prop :=
  Proper occurrence.inner ∧ occurrence.text kind <+: text.drop occurrence.start

def Before (kind : Kind) (first later : Occurrence) : Prop :=
  first.stop kind ≤ later.start

/-- The occurrence with so much more text before it. -/
def shift (count : Nat) (occurrence : Occurrence) : Occurrence :=
  { occurrence with start := count + occurrence.start }

theorem start_lt_stop (kind : Kind) (occurrence : Occurrence) :
    occurrence.start < occurrence.stop kind := by
  have proper : 0 < (occurrence.text kind).length := by
    rw [text, placeholderText, List.length_append]
    exact Nat.lt_add_left _ (by decide)
  exact Nat.lt_add_of_pos_right proper

theorem stop_shift (count : Nat) (occurrence : Occurrence) :
    (occurrence.shift count).stop kind = count + occurrence.stop kind :=
  Nat.add_assoc _ _ _

theorem before_shift_iff (count : Nat) :
    Before kind (occurrence.shift count) (other.shift count) ↔ Before kind occurrence other := by
  rw [Before, stop_shift]
  exact Nat.add_le_add_iff_left

instance (kind : Kind) : Std.Irrefl (Before kind) where
  irrefl occurrence before := Nat.not_lt.2 before (occurrence.start_lt_stop kind)

instance (kind : Kind) : Std.Antisymm (Before kind) where
  antisymm first later before behind := by
    have firstProper := first.start_lt_stop kind
    have laterProper := later.start_lt_stop kind
    simp only [Before] at before behind
    omega

theorem in_shift_iff (front : Text) :
    (occurrence.shift front.length).In kind (front ++ text) ↔ occurrence.In kind text := by
  rw [In, shift, List.drop_length_add_append]
  exact Iff.rfl

/-- What occurs behind the front of a text occurs in the rest of it. -/
theorem In.exists_shift (isIn : occurrence.In kind (front ++ text))
    (behind : front.length ≤ occurrence.start) :
    ∃ later : Occurrence, later.In kind text ∧ occurrence = later.shift front.length := by
  obtain ⟨start, inner⟩ := occurrence
  obtain ⟨count, rfl⟩ := Nat.exists_eq_add_of_le behind
  exact ⟨⟨count, inner⟩, (in_shift_iff front).1 isIn, rfl⟩

theorem In.begins (isIn : occurrence.In kind text) (atFront : occurrence.start = 0) :
    Begins kind text := by
  obtain ⟨proper, reads⟩ := isIn
  rw [atFront, List.drop_zero] at reads
  obtain ⟨rest, whole⟩ := reads
  exact ⟨occurrence.inner, rest, proper, whole.symm⟩

/-- A text reads as one placeholder in one place. -/
theorem In.unique (isIn : occurrence.In kind text) (otherIn : other.In kind text)
    (same : occurrence.start = other.start) : occurrence = other := by
  have place : ∀ {single : Occurrence}, single.In kind text →
      ∃ rest, placeholderAt? kind (text.drop single.start) = some (single.inner, rest) := by
    rintro single ⟨proper, rest, whole⟩
    obtain ⟨nonempty, clean⟩ := proper_iff.1 proper
    exact ⟨rest, placeholderAt?_eq_some_iff.2 ⟨nonempty, clean, whole.symm⟩⟩
  obtain ⟨rest, found⟩ := place isIn
  obtain ⟨rest', found'⟩ := place otherIn
  rw [same] at found
  obtain ⟨sameInner, -⟩ := Prod.mk.inj (Option.some.inj (found.symm.trans found'))
  obtain ⟨start, inner⟩ := occurrence
  obtain ⟨start', inner'⟩ := other
  exact congrArg₂ Occurrence.mk same sameInner

end Occurrence

/-- The placeholders of a text as they are found from left to right: none overlaps another, each is
one, and whatever reads as a placeholder overlaps one of them that begins no later. -/
structure Finds (kind : Kind) (text : Text) (found : List Occurrence) : Prop where
  apart : found.Pairwise (Occurrence.Before kind)
  present : ∀ hit ∈ found, hit.In kind text
  covers : ∀ occurrence : Occurrence, occurrence.In kind text →
    ∃ hit ∈ found, hit.start ≤ occurrence.start ∧ occurrence.start < hit.stop kind

/-! ## A scan finds them -/

/-- Where the placeholders among some segments stand. -/
def occurrencesOf (kind : Kind) : List Segment → List Occurrence
  | [] => []
  | .literal _ :: rest => (occurrencesOf kind rest).map (·.shift 1)
  | .placeholder inner :: rest =>
    ⟨0, inner⟩ :: (occurrencesOf kind rest).map (·.shift (placeholderText kind inner).length)

def occurrences (kind : Kind) (text : Text) : List Occurrence :=
  occurrencesOf kind (segments kind text)

theorem map_inner_occurrencesOf (kind : Kind) (segments : List Segment) :
    (occurrencesOf kind segments).map Occurrence.inner = segments.filterMap Segment.inner? := by
  induction segments with
  | nil => rfl
  | cons segment rest ih =>
    have shifted : ∀ count, ((occurrencesOf kind rest).map (·.shift count)).map
        Occurrence.inner = rest.filterMap Segment.inner? := by
      intro count
      rw [List.map_map, ← ih]
      rfl
    cases segment with
    | literal c => exact shifted 1
    | placeholder inner => exact congrArg (inner :: ·) (shifted _)

namespace Finds

variable {found other : List Occurrence}

theorem nil (kind : Kind) : Finds kind [] [] where
  apart := .nil
  present := fun _ member => absurd member List.not_mem_nil
  covers := by
    rintro occurrence ⟨-, reads⟩
    rw [List.drop_nil, List.prefix_nil] at reads
    cases kind <;> cases reads

section Behind

variable (finds : Finds kind text found)
include finds

theorem apart_shift (count : Nat) :
    (found.map (·.shift count)).Pairwise (Occurrence.Before kind) := by
  rw [List.pairwise_map]
  exact finds.apart.imp fun before => (Occurrence.before_shift_iff count).2 before

theorem present_shift (front : Text) :
    ∀ hit ∈ found.map (·.shift front.length), hit.In kind (front ++ text) := by
  intro hit member
  obtain ⟨earlier, within, rfl⟩ := List.mem_map.1 member
  exact (Occurrence.in_shift_iff front).2 (finds.present earlier within)

theorem covers_shift (front : Text) {occurrence : Occurrence}
    (isIn : occurrence.In kind (front ++ text))
    (behind : front.length ≤ occurrence.start) : ∃ hit ∈ found.map (·.shift front.length),
      hit.start ≤ occurrence.start ∧ occurrence.start < hit.stop kind := by
  obtain ⟨later, laterIn, rfl⟩ := isIn.exists_shift behind
  obtain ⟨hit, member, begins, ends⟩ := finds.covers later laterIn
  refine ⟨hit.shift front.length, List.mem_map_of_mem member, ?_, ?_⟩
  · exact Nat.add_le_add_left begins _
  · rw [Occurrence.stop_shift]
    exact Nat.add_lt_add_left ends _

/-- A character at which no placeholder begins is passed over. -/
theorem literal (nothing : ¬ Begins kind (c :: text)) :
    Finds kind (c :: text) (found.map (·.shift 1)) where
  apart := finds.apart_shift 1
  present := finds.present_shift [c]
  covers := by
    intro occurrence isIn
    by_cases atFront : occurrence.start = 0
    · exact absurd (isIn.begins atFront) nothing
    · exact finds.covers_shift [c] isIn (Nat.pos_of_ne_zero atFront)

/-- A placeholder at the front is taken whole, so what else begins in it overlaps it. -/
theorem placeholder (proper : Proper inner) :
    Finds kind (placeholderText kind inner ++ text)
      (⟨0, inner⟩ :: found.map (·.shift (placeholderText kind inner).length)) where
  apart := by
    refine List.pairwise_cons.2 ⟨fun hit member => ?_, finds.apart_shift _⟩
    obtain ⟨earlier, -, rfl⟩ := List.mem_map.1 member
    rw [Occurrence.Before, Occurrence.stop, Nat.zero_add]
    exact Nat.le_add_right _ _
  present := by
    intro hit member
    rcases List.mem_cons.1 member with rfl | behind
    · exact ⟨proper, List.prefix_append _ _⟩
    · exact finds.present_shift _ hit behind
  covers := by
    intro occurrence isIn
    by_cases within : occurrence.start < (placeholderText kind inner).length
    · refine ⟨⟨0, inner⟩, List.mem_cons_self, Nat.zero_le _, ?_⟩
      rwa [Occurrence.stop, Nat.zero_add]
    · obtain ⟨hit, member, covers⟩ := finds.covers_shift _ isIn (Nat.not_lt.1 within)
      exact ⟨hit, List.mem_cons_of_mem _ member, covers⟩

end Behind

theorem occurrences (kind : Kind) (text : Text) :
    Finds kind text (Template.occurrences kind text) := by
  unfold Template.occurrences
  induction text using scan_induction kind with
  | nil =>
    rw [segments_nil]
    exact nil kind
  | literal c rest nothing ih =>
    rw [segments_of_literal nothing]
    exact ih.literal (not_begins_iff.2 nothing)
  | placeholder inner rest nonempty clean ih =>
    rw [segments_of_placeholder (placeholderAt?_eq_some_iff.2 ⟨nonempty, clean, rfl⟩)]
    exact ih.placeholder (proper_iff.2 ⟨nonempty, clean⟩)

/-! ## There is one way to find them -/

/-- Of two that are found the one that begins first ends before the other begins. -/
theorem before_of_start_lt (finds : Finds kind text found) {first later : Occurrence}
    (firstFound : first ∈ found) (laterFound : later ∈ found)
    (earlier : first.start < later.start) : first.Before kind later := by
  obtain ⟨i, firstAt, rfl⟩ := List.getElem_of_mem firstFound
  obtain ⟨j, laterAt, rfl⟩ := List.getElem_of_mem laterFound
  rcases Nat.lt_trichotomy i j with before | same | behind
  · exact List.pairwise_iff_getElem.1 finds.apart i j firstAt laterAt before
  · subst same
    exact absurd earlier (Nat.lt_irrefl _)
  · have reversed := List.pairwise_iff_getElem.1 finds.apart j i laterAt firstAt behind
    have proper := (found[j]).start_lt_stop kind
    rw [Occurrence.Before] at reversed
    omega

/-- What is found in one way is found in another, if all that begins earlier and is found in the
other way is found in the one: an earlier occurrence that covers it would be found beside it. -/
theorem mem_of_earlier (finds : Finds kind text found) (finds' : Finds kind text other)
    {hit : Occurrence} (earlier : ∀ cover ∈ other, cover.start < hit.start → cover ∈ found)
    (member : hit ∈ found) : hit ∈ other := by
  have isIn := finds.present hit member
  obtain ⟨cover, coverFound, begins, ends⟩ := finds'.covers hit isIn
  rcases Nat.lt_or_eq_of_le begins with before | same
  · have beside := finds.before_of_start_lt (earlier cover coverFound before) member before
    exact absurd ends (Nat.not_lt.2 beside)
  · rwa [← (finds'.present cover coverFound).unique isIn same]

theorem mem_iff (finds : Finds kind text found) (finds' : Finds kind text other)
    (hit : Occurrence) : hit ∈ found ↔ hit ∈ other := by
  induction start : hit.start using Nat.strongRecOn generalizing hit with
  | _ start ih =>
    subst start
    constructor
    · apply finds.mem_of_earlier finds'
      exact fun cover member before => (ih _ before cover rfl).2 member
    · apply finds'.mem_of_earlier finds
      exact fun cover member before => (ih _ before cover rfl).1 member

theorem unique (finds : Finds kind text found) (finds' : Finds kind text other) : found = other :=
  finds.apart.eq_of_mem_iff finds'.apart (finds.mem_iff finds')

end Finds

/-! ## The different placeholders -/

theorem placeholderText_injective (kind : Kind) : Function.Injective (placeholderText kind) := by
  intro inner inner' same
  rw [placeholderText, placeholderText] at same
  exact List.append_cancel_left (List.append_cancel_right same)

section Distinct

variable {α β : Type} [BEq α] [LawfulBEq α] [BEq β] [LawfulBEq β] {items : List α} {item : α}

theorem eraseDups_concat_of_mem (among : item ∈ items) :
    (items ++ [item]).eraseDups = items.eraseDups := by
  rw [List.eraseDups_append]
  simp [List.removeAll, among]

theorem eraseDups_concat_of_notMem (further : item ∉ items) :
    (items ++ [item]).eraseDups = items.eraseDups ++ [item] := by
  rw [List.eraseDups_append]
  simp [List.removeAll, further, List.eraseDups_cons]

theorem eraseDups_map {f : α → β} (injective : Function.Injective f) (items : List α) :
    (items.map f).eraseDups = items.eraseDups.map f := by
  induction items using List.reverseRecOn with
  | nil => rfl
  | append_singleton items item ih =>
    rw [List.map_append, List.map_singleton]
    by_cases among : item ∈ items
    · rw [eraseDups_concat_of_mem among, eraseDups_concat_of_mem (List.mem_map_of_mem among), ih]
    · have further : f item ∉ items.map f := (List.mem_map_of_injective injective).not.2 among
      rw [eraseDups_concat_of_notMem among, eraseDups_concat_of_notMem further, ih,
        List.map_append, List.map_singleton]

end Distinct

/-- Each different text of some occurrences, once, in the order of their first occurrences. -/
structure FirstsOf (kind : Kind) (found : List Occurrence) (texts : List Text) : Prop where
  once : texts.Nodup
  each : ∀ text, text ∈ texts ↔ ∃ hit ∈ found, hit.text kind = text
  inOrder : texts.Pairwise fun text later => ∃ hit ∈ found, hit.text kind = text ∧
    ∀ other ∈ found, other.text kind = later → hit.start < other.start

namespace FirstsOf

variable {found : List Occurrence} {texts : List Text} {last : Occurrence}

/-- An occurrence behind the others does not come before any of them. -/
theorem inOrder_concat (firsts : FirstsOf kind found texts)
    (behind : ∀ hit ∈ found, hit.start < last.start) :
    texts.Pairwise fun text later => ∃ hit ∈ found ++ [last], hit.text kind = text ∧
      ∀ other ∈ found ++ [last], other.text kind = later → hit.start < other.start := by
  apply firsts.inOrder.imp
  rintro text later ⟨hit, member, reads, earliest⟩
  have first : ∀ other ∈ found ++ [last], other.text kind = later → hit.start < other.start := by
    intro other within same
    rcases List.mem_append.1 within with inside | isLast
    · exact earliest other inside same
    · exact List.mem_singleton.1 isLast ▸ behind hit member
  exact ⟨hit, List.mem_append_left _ member, reads, first⟩

theorem again (firsts : FirstsOf kind found texts)
    (behind : ∀ hit ∈ found, hit.start < last.start) (known : last.text kind ∈ texts) :
    FirstsOf kind (found ++ [last]) texts where
  once := firsts.once
  each := by
    intro text
    rw [firsts.each]
    constructor
    · rintro ⟨hit, member, reads⟩
      exact ⟨hit, List.mem_append_left _ member, reads⟩
    · rintro ⟨hit, member, rfl⟩
      rcases List.mem_append.1 member with inside | isLast
      · exact ⟨hit, inside, rfl⟩
      · exact List.mem_singleton.1 isLast ▸ (firsts.each _).1 known
  inOrder := firsts.inOrder_concat behind

theorem further (firsts : FirstsOf kind found texts)
    (behind : ∀ hit ∈ found, hit.start < last.start) (unknown : last.text kind ∉ texts) :
    FirstsOf kind (found ++ [last]) (texts ++ [last.text kind]) where
  once := by
    apply List.nodup_append.2
    refine ⟨firsts.once, List.nodup_singleton _, ?_⟩
    rintro text member other isLast rfl
    exact unknown (List.mem_singleton.1 isLast ▸ member)
  each := by
    intro text
    have isLast : text = last.text kind ↔ ∃ hit, hit = last ∧ hit.text kind = text := by
      rw [exists_eq_left, eq_comm]
    simp only [List.mem_append, List.mem_singleton, firsts.each, isLast, or_and_right, exists_or]
  inOrder := by
    refine List.pairwise_append.2 ⟨firsts.inOrder_concat behind, List.pairwise_singleton _ _, ?_⟩
    intro text member later isLast
    obtain rfl := List.mem_singleton.1 isLast
    obtain ⟨hit, inside, reads⟩ := (firsts.each text).1 member
    have first : ∀ other ∈ found ++ [last], other.text kind = last.text kind →
        hit.start < other.start := by
      intro other within same
      rcases List.mem_append.1 within with among | isLast
      · exact absurd ((firsts.each _).2 ⟨other, among, same⟩) unknown
      · exact List.mem_singleton.1 isLast ▸ behind hit inside
    exact ⟨hit, List.mem_append_left _ inside, reads, first⟩

/-- Texts that are taken out where they repeat an earlier one are left in that order. -/
theorem eraseDups (sorted : found.Pairwise fun first later => first.start < later.start) :
    FirstsOf kind found (found.map (Occurrence.text kind)).eraseDups := by
  induction found using List.reverseRecOn with
  | nil => exact ⟨.nil, by simp, .nil⟩
  | append_singleton found last ih =>
    obtain ⟨front, -, below⟩ := List.pairwise_append.1 sorted
    have behind : ∀ hit ∈ found, hit.start < last.start := fun hit member =>
      below hit member last (List.mem_singleton_self last)
    have firsts := ih front
    rw [List.map_append, List.map_singleton]
    by_cases known : last.text kind ∈ found.map (Occurrence.text kind)
    · rw [eraseDups_concat_of_mem known]
      exact firsts.again behind (List.mem_eraseDups.2 known)
    · rw [eraseDups_concat_of_notMem known]
      exact firsts.further behind fun member => known (List.mem_eraseDups.1 member)

end FirstsOf

theorem map_references (kind : Kind) (text : Text) :
    (references kind text).map (placeholderText kind) =
      ((occurrences kind text).map (Occurrence.text kind)).eraseDups := by
  have texts : (occurrences kind text).map (Occurrence.text kind) =
      ((occurrences kind text).map Occurrence.inner).map (placeholderText kind) := by
    rw [List.map_map]
    rfl
  rw [texts, occurrences, map_inner_occurrencesOf, references,
    eraseDups_map (placeholderText_injective kind)]

/-- A scan is sound and complete. There is exactly one way to find the placeholders of a text from
left to right, so that they lie one behind the other and all else that reads as a placeholder
overlaps one that begins no later; a scan comes to it. The references of the text are the different
placeholders that are found, each once, in the order of their first occurrences. -/
theorem references_found (kind : Kind) (text : Text) :
    (∀ found, Finds kind text found ↔ found = occurrences kind text) ∧
      FirstsOf kind (occurrences kind text)
        ((references kind text).map (placeholderText kind)) := by
  have finds := Finds.occurrences kind text
  constructor
  · intro found
    constructor
    · exact fun finds' => finds'.unique finds
    · rintro rfl
      exact finds
  · have sorted : (occurrences kind text).Pairwise fun first later => first.start < later.start :=
      finds.apart.imp fun {first _} before => Nat.lt_of_lt_of_le (first.start_lt_stop kind) before
    rw [map_references]
    exact .eraseDups sorted

/-- Of a run of percent signs the last two open a placeholder. What reads as another one between
the two of these shares its marks with both. -/
example : occurrences .variable "%%%A%%B%%%A%%".toList = [⟨1, ['A']⟩, ⟨8, ['A']⟩] := by
  decide +kernel

end ImageStaging.Template
