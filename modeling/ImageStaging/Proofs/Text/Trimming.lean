import ImageStaging.Text.Basic
import Mathlib.Data.List.Basic
import Mathlib.Data.List.Induction
import Mathlib.Data.List.TakeWhile

/-!
# Blanks at the ends of a text

Trimming takes away one blank after the other, so whatever no single blank at an end of a text can
change is the same of the text and of what trimming leaves of it.
-/

namespace ImageStaging.Text

theorem trim_cons_of_isBlank {c : Char} (blank : isBlank c = true) (text : Text) :
    trim (c :: text) = trim text := by
  simp [trim, List.dropWhile_cons_of_pos blank]

theorem trim_append_of_blank_front {front : Text} (blank : ∀ c ∈ front, isBlank c = true)
    (text : Text) : trim (front ++ text) = trim text := by
  induction front with
  | nil => rfl
  | cons c front ih =>
    rw [List.cons_append, trim_cons_of_isBlank (blank c List.mem_cons_self)]
    exact ih fun d member => blank d (List.mem_cons_of_mem c member)

theorem dropEnd_concat_of_isBlank {c : Char} (blank : isBlank c = true) (text : Text) :
    dropEnd isBlank (text ++ [c]) = dropEnd isBlank text := by
  simp [dropEnd, List.dropWhile_cons_of_pos blank]

theorem trim_concat_of_isBlank {c : Char} (blank : isBlank c = true) (text : Text) :
    trim (text ++ [c]) = trim text := by
  induction text with
  | nil => exact trim_cons_of_isBlank blank []
  | cons d text ih =>
    by_cases first : isBlank d = true
    · rw [List.cons_append, trim_cons_of_isBlank first, trim_cons_of_isBlank first, ih]
    · simp only [trim, List.cons_append, List.dropWhile_cons_of_neg first]
      exact dropEnd_concat_of_isBlank blank (d :: text)

theorem trim_append_of_blank_back {back : Text} (blank : ∀ c ∈ back, isBlank c = true)
    (text : Text) : trim (text ++ back) = trim text := by
  induction back using List.reverseRecOn with
  | nil => rw [List.append_nil]
  | append_singleton back c ih =>
    rw [← List.append_assoc, trim_concat_of_isBlank (blank c (by simp))]
    exact ih fun d member => blank d (List.mem_append_left [c] member)

theorem trim_of_blank {text : Text} (blank : ∀ c ∈ text, isBlank c = true) : trim text = [] := by
  have ends := trim_append_of_blank_front blank []
  rwa [List.append_nil] at ends

section Ends

variable (property : Text → Prop)

theorem iff_dropWhile (before : ∀ c text, isBlank c = true → (property (c :: text) ↔ property text))
    (text : Text) : property (text.dropWhile isBlank) ↔ property text := by
  induction text with
  | nil => exact Iff.rfl
  | cons c text ih =>
    by_cases blank : isBlank c = true
    · rw [List.dropWhile_cons_of_pos blank, ih, before c text blank]
    · rw [List.dropWhile_cons_of_neg blank]

theorem iff_dropEnd
    (behind : ∀ c text, isBlank c = true → (property (text ++ [c]) ↔ property text))
    (text : Text) : property (dropEnd isBlank text) ↔ property text := by
  induction text using List.reverseRecOn with
  | nil => exact Iff.rfl
  | append_singleton text c ih =>
    by_cases blank : isBlank c = true
    · rw [dropEnd_concat_of_isBlank blank, ih, behind c text blank]
    · have stays : dropEnd isBlank (text ++ [c]) = text ++ [c] := by
        simp [dropEnd, List.dropWhile_cons_of_neg blank]
      rw [stays]

/-- What no blank at an end can change, trimming does not change. -/
theorem iff_trim (before : ∀ c text, isBlank c = true → (property (c :: text) ↔ property text))
    (behind : ∀ c text, isBlank c = true → (property (text ++ [c]) ↔ property text))
    (text : Text) : property (trim text) ↔ property text :=
  (iff_dropEnd property behind _).trans (iff_dropWhile property before text)

end Ends

theorem trim_trim (text : Text) : trim (trim text) = trim text :=
  (iff_trim (fun other => trim other = trim text)
    (fun _ other blank => by rw [trim_cons_of_isBlank blank other])
    (fun _ other blank => by rw [trim_concat_of_isBlank blank other]) text).2 rfl

/-! ## Trimmed texts -/

/-- There is no blank at either end. -/
def Trimmed (text : Text) : Prop :=
  (∀ c ∈ text.head?, isBlank c = false) ∧ ∀ c ∈ text.getLast?, isBlank c = false

theorem isBlank_head?_dropWhile (text : Text) :
    ∀ c ∈ (text.dropWhile isBlank).head?, isBlank c = false := by
  intro c first
  have head := List.head?_dropWhile_not isBlank text
  rw [Option.mem_def.1 first] at head
  exact head

theorem dropEnd_prefix (drop : Char → Bool) (text : Text) : dropEnd drop text <+: text := by
  rw [dropEnd, ← List.reverse_suffix, List.reverse_reverse]
  exact List.dropWhile_suffix drop

theorem trimmed_trim (text : Text) : Trimmed (trim text) := by
  constructor
  · intro c first
    -- what is left at the back begins as the text without its blanks in front
    obtain ⟨dropped, whole⟩ := dropEnd_prefix isBlank (text.dropWhile isBlank)
    apply isBlank_head?_dropWhile text
    rw [← whole]
    exact List.mem_head?_append_of_mem_head? first
  · intro c last
    apply isBlank_head?_dropWhile (text.dropWhile isBlank).reverse
    rwa [trim, dropEnd, List.getLast?_reverse] at last

theorem dropWhile_isBlank_of_head {text : Text} (visible : ∀ c ∈ text.head?, isBlank c = false) :
    text.dropWhile isBlank = text := by
  cases text with
  | nil => rfl
  | cons c text => exact List.dropWhile_cons_of_neg (by simp [visible c rfl])

theorem trim_eq_self_iff {text : Text} : trim text = text ↔ Trimmed text := by
  constructor
  · intro same
    exact same ▸ trimmed_trim text
  · rintro ⟨first, last⟩
    rw [trim, dropWhile_isBlank_of_head first, dropEnd, dropWhile_isBlank_of_head,
      List.reverse_reverse]
    rwa [List.head?_reverse]

end ImageStaging.Text
