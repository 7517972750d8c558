/-!
# Texts

A text is a list of characters, so that every scanner below is a recursion on the text itself.
Two classes of characters are cut off the ends of a text: blanks, which surround the names and
values of variables, and white space in the sense of the Unicode property, which decides whether
a setting is empty.
-/

namespace ImageStaging

abbrev Text := List Char

namespace Text

/-- A space, a carriage return or a line feed. A tab is kept as part of a value. -/
def isBlank (c : Char) : Bool :=
  c = ' ' || c = '\r' || c = '\n'

/-- The characters with the Unicode property White_Space. -/
def isWhiteSpace (c : Char) : Bool :=
  let code := c.toNat
  (9 ≤ code && code ≤ 13) || code = 0x20 || code = 0x85 || code = 0xA0 || code = 0x1680 ||
    (0x2000 ≤ code && code ≤ 0x200A) || code = 0x2028 || code = 0x2029 || code = 0x202F ||
    code = 0x205F || code = 0x3000

def dropEnd (drop : Char → Bool) (text : Text) : Text :=
  (text.reverse.dropWhile drop).reverse

/-- The text without the blanks at its two ends. -/
def trim (text : Text) : Text :=
  dropEnd isBlank (text.dropWhile isBlank)

@[simp] theorem trim_nil : trim [] = [] := rfl

def isEmptyOrWhiteSpace (text : Text) : Bool :=
  text.all isWhiteSpace

/-- The part before the first separator and the part after it. -/
def splitFirst (separator : Char) : Text → Option (Text × Text)
  | [] => none
  | c :: rest =>
    if c = separator then some ([], rest)
    else (splitFirst separator rest).map fun (front, back) => (c :: front, back)

theorem splitFirst_eq_some {separator : Char} {text front back : Text} :
    splitFirst separator text = some (front, back) ↔
      text = front ++ separator :: back ∧ separator ∉ front := by
  induction text generalizing front back with
  | nil => simp [splitFirst]
  | cons c rest ih =>
    by_cases h : c = separator
    · subst h
      simp only [splitFirst, if_true, Option.some.injEq, Prod.mk.injEq]
      constructor
      · rintro ⟨rfl, rfl⟩
        simp
      · rintro ⟨hText, hFront⟩
        cases front with
        | nil => simpa using hText
        | cons d front =>
          simp only [List.cons_append, List.cons.injEq] at hText
          exact absurd (hText.1 ▸ List.mem_cons_self) hFront
    · simp only [splitFirst, if_neg h, Option.map_eq_some_iff, Prod.exists, Prod.mk.injEq]
      constructor
      · rintro ⟨front, back, hRest, rfl, rfl⟩
        obtain ⟨rfl, hFront⟩ := ih.1 hRest
        exact ⟨rfl, by simpa [Ne.symm h] using hFront⟩
      · rintro ⟨hText, hFront⟩
        cases front with
        | nil =>
          simp only [List.nil_append, List.cons.injEq] at hText
          exact absurd hText.1 h
        | cons d front =>
          simp only [List.cons_append, List.cons.injEq] at hText
          obtain ⟨rfl, rfl⟩ := hText
          have hRest : separator ∉ front := fun hMem => hFront (List.mem_cons_of_mem _ hMem)
          exact ⟨front, back, ih.2 ⟨rfl, hRest⟩, rfl, rfl⟩

/-- Every maximal run of characters between separators, the empty runs included. -/
def fields (separator : Char) (text : Text) : List Text :=
  text.splitOn separator

end Text

end ImageStaging
