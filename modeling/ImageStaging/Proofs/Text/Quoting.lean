import ImageStaging.Invocation
import Mathlib.Data.List.Basic
import Mathlib.Tactic.SplitIfs

/-!
# Reading a command line back

What a reader takes from a line is more than its words: of each character it also knows whether it
stood inside a quotation. Here a line is read into such letters, by the same rules as `Word.split`.
A quoted word is read back as its own characters, and whatever means something to a shell stands
there inside a quotation; so a displayed command line stands for one list of words only.
-/

namespace ImageStaging

namespace Word

/-- A character as it was read: `literal` if it stood between apostrophes or after a backslash. -/
structure Letter where
  char : Char
  literal : Bool
  deriving DecidableEq, Repr

def Letter.bare (c : Char) : Letter :=
  ⟨c, false⟩

def Letter.quoted (c : Char) : Letter :=
  ⟨c, true⟩

/-- The characters of a word, however they were written. -/
def spelling (word : List Letter) : Text :=
  word.map Letter.char

/-- `Reading`, with a word of letters. -/
inductive LetterReading
  | between
  | bare (word : List Letter)
  | quoted (word : List Letter)
  | escaped (word : List Letter)

def LetterReading.plain : LetterReading → Reading
  | .between => .between
  | .bare word => .bare (spelling word)
  | .quoted word => .quoted (spelling word)
  | .escaped word => .escaped (spelling word)

/-- The words of a line in letters, by the rules of `splitFrom`. -/
def lettersFrom : LetterReading → Text → Option (List (List Letter))
  | .between, [] => some []
  | .bare word, [] => some [word.reverse]
  | .quoted _, [] => none
  | .escaped _, [] => none
  | .between, c :: rest =>
    if isSeparator c then lettersFrom .between rest
    else if c = apostrophe then lettersFrom (.quoted []) rest
    else if c = backslash then lettersFrom (.escaped []) rest
    else lettersFrom (.bare [.bare c]) rest
  | .bare word, c :: rest =>
    if isSeparator c then (lettersFrom .between rest).map (word.reverse :: ·)
    else if c = apostrophe then lettersFrom (.quoted word) rest
    else if c = backslash then lettersFrom (.escaped word) rest
    else lettersFrom (.bare (.bare c :: word)) rest
  | .quoted word, c :: rest =>
    if c = apostrophe then lettersFrom (.bare word) rest
    else lettersFrom (.quoted (.quoted c :: word)) rest
  | .escaped word, c :: rest => lettersFrom (.bare (.quoted c :: word)) rest

def letters (line : Text) : Option (List (List Letter)) :=
  lettersFrom .between line

/-! ### The two readings -/

theorem splitFrom_plain (line : Text) (reading : LetterReading) :
    splitFrom reading.plain line = (lettersFrom reading line).map (List.map spelling) := by
  induction line generalizing reading with
  | nil => cases reading <;> simp [LetterReading.plain, splitFrom, lettersFrom, spelling]
  | cons c rest ih =>
    cases reading with
    | between =>
      simp only [LetterReading.plain, splitFrom, lettersFrom]
      split_ifs
      · exact ih .between
      · exact ih (.quoted [])
      · exact ih (.escaped [])
      · exact ih (.bare [.bare c])
    | bare word =>
      simp only [LetterReading.plain, splitFrom, lettersFrom]
      split_ifs
      · have after : splitFrom .between rest = _ := ih .between
        simp [after, spelling, Function.comp_def]
      · exact ih (.quoted word)
      · exact ih (.escaped word)
      · exact ih (.bare (.bare c :: word))
    | quoted word =>
      simp only [LetterReading.plain, splitFrom, lettersFrom]
      split_ifs
      · exact ih (.bare word)
      · exact ih (.quoted (.quoted c :: word))
    | escaped word => exact ih (.bare (.quoted c :: word))

/-- To split a line is to read its letters and to forget the quotation. -/
theorem split_eq_letters (line : Text) :
    split line = (letters line).map (List.map spelling) :=
  splitFrom_plain line .between

example : letters "it\\'s '|'".toList =
    some [[.bare 'i', .bare 't', .quoted '\x27', .bare 's'], [.quoted '|']] := by
  decide

/-! ### A word read back -/

/-- The letters that a quoted word is read back as. -/
def quotedLetters (word : Text) : List Letter :=
  if word ≠ [] && !word.any isSpecial then word.map .bare else word.map .quoted

theorem spelling_quotedLetters (word : Text) : spelling (quotedLetters word) = word := by
  unfold quotedLetters spelling
  split_ifs <;> simp [Function.comp_def, Letter.bare, Letter.quoted]

/-- A character that a shell does not take as itself is inside a quotation. -/
theorem literal_of_isSpecial {word : Text} {letter : Letter}
    (member : letter ∈ quotedLetters word) (special : isSpecial letter.char) :
    letter.literal := by
  unfold quotedLetters at member
  split_ifs at member with plain
  · obtain ⟨c, inWord, rfl⟩ := List.mem_map.1 member
    have noneSpecial : ∀ c ∈ word, ¬ isSpecial c := by
      simp only [Bool.and_eq_true, Bool.not_eq_true', List.any_eq_false] at plain
      exact plain.2
    exact absurd special (noneSpecial c inWord)
  · obtain ⟨c, -, rfl⟩ := List.mem_map.1 member
    rfl

theorem not_marker_of_not_isSpecial {c : Char} (plain : ¬ isSpecial c) :
    ¬ isSeparator c ∧ c ≠ apostrophe ∧ c ≠ backslash := by
  simp only [isSpecial, special, List.contains_iff_mem, List.mem_cons, not_or] at plain
  simp [isSeparator, plain]

theorem lettersFrom_bare_append {word : Text} (plain : ∀ c ∈ word, ¬ isSpecial c)
    (before : List Letter) (rest : Text) :
    lettersFrom (.bare before) (word ++ rest) =
      lettersFrom (.bare ((word.map .bare).reverse ++ before)) rest := by
  induction word generalizing before with
  | nil => rfl
  | cons c word ih =>
    obtain ⟨noSeparator, noApostrophe, noBackslash⟩ :=
      not_marker_of_not_isSpecial (plain c List.mem_cons_self)
    have tail := ih (fun d inWord => plain d (List.mem_cons_of_mem c inWord)) (.bare c :: before)
    simpa [lettersFrom, noSeparator, noApostrophe, noBackslash] using tail

/-- An apostrophe is written outside of the quotation, but with a backslash. -/
theorem lettersFrom_quoteChar (c : Char) (before : List Letter) (rest : Text) :
    lettersFrom (.quoted before) (quoteChar c ++ rest) =
      lettersFrom (.quoted (.quoted c :: before)) rest := by
  by_cases isApostrophe : c = apostrophe
  · subst isApostrophe
    simp [quoteChar, lettersFrom, isSeparator, apostrophe, backslash]
  · simp [quoteChar, isApostrophe, lettersFrom]

theorem lettersFrom_quoted_append (word : Text) (before : List Letter) (rest : Text) :
    lettersFrom (.quoted before) (word.flatMap quoteChar ++ apostrophe :: rest) =
      lettersFrom (.bare ((word.map .quoted).reverse ++ before)) rest := by
  induction word generalizing before with
  | nil => simp [lettersFrom]
  | cons c word ih =>
    rw [List.flatMap_cons, List.append_assoc, lettersFrom_quoteChar, ih]
    simp

theorem lettersFrom_quote (word rest : Text) :
    lettersFrom .between (quote word ++ rest) =
      lettersFrom (.bare (quotedLetters word).reverse) rest := by
  unfold quote quotedLetters
  split_ifs with plain
  · obtain ⟨nonempty, noneSpecial⟩ : word ≠ [] ∧ ∀ c ∈ word, ¬ isSpecial c := by
      simpa using plain
    obtain ⟨c, word, rfl⟩ := List.exists_cons_of_ne_nil nonempty
    obtain ⟨noSeparator, noApostrophe, noBackslash⟩ :=
      not_marker_of_not_isSpecial (noneSpecial c List.mem_cons_self)
    have tail := lettersFrom_bare_append
      (fun d inWord => noneSpecial d (List.mem_cons_of_mem c inWord)) [.bare c] rest
    simpa [lettersFrom, noSeparator, noApostrophe, noBackslash] using tail
  · have opened := lettersFrom_quoted_append word [] rest
    simpa [lettersFrom, isSeparator, apostrophe] using opened

/-! ### All words of a line -/

theorem join_cons_cons (word next : Text) (words : List Text) :
    join (word :: next :: words) = quote word ++ ' ' :: join (next :: words) := by
  simp [join, List.intercalate]

theorem letters_join (words : List Text) : letters (join words) = some (words.map quotedLetters) := by
  induction words with
  | nil => rfl
  | cons word words ih =>
    cases words with
    | nil =>
      have alone : join [word] = quote word ++ [] := by simp [join, List.intercalate]
      rw [letters, alone, lettersFrom_quote]
      simp [lettersFrom]
    | cons next words =>
      rw [letters] at ih ⊢
      rw [join_cons_cons, lettersFrom_quote]
      simp [lettersFrom, isSeparator, ih]

theorem split_join (words : List Text) : split (join words) = some words := by
  rw [split_eq_letters, letters_join]
  simp [Function.comp_def, spelling_quotedLetters]

/-- What a shell takes as an operator or as the start of an expansion, a pattern, a comment or a
quotation of its own. -/
def shellActive : List Char :=
  ['|', '&', ';', '<', '>', '(', ')', '$', '\x60', '*', '?', '[', '#', '\x22']

theorem isSpecial_of_mem_shellActive {c : Char} (active : c ∈ shellActive) : isSpecial c := by
  have inside : shellActive ⊆ special := by decide
  exact List.contains_iff_mem.2 (inside active)

end Word

namespace Invocation

theorem commandLine_toList (invocation : Invocation) :
    invocation.commandLine.toList = Word.join (invocation.words.map String.toList) := by
  simp [commandLine]

/-- A displayed command line stands for one list of words only. -/
theorem commandLine_eq_iff (invocation other : Invocation) :
    invocation.commandLine = other.commandLine ↔ invocation.words = other.words := by
  refine ⟨fun same => ?_, fun same => by rw [commandLine, commandLine, same]⟩
  have read := congrArg (fun line => Word.split line.toList) same
  simp only [commandLine_toList, Word.split_join, Option.some.injEq] at read
  exact List.map_injective_iff.2 (fun _ _ => String.toList_injective) read

/-- The displayed command line is read back as the program and its arguments, and what could mean
something else to a shell stands there inside a quotation. -/
theorem commandLine_reads_back (invocation : Invocation) :
    Word.split invocation.commandLine.toList =
        some ((invocation.program :: invocation.arguments).map String.toList) ∧
      ∃ words, Word.letters invocation.commandLine.toList = some words ∧
        words.map Word.spelling = (invocation.program :: invocation.arguments).map String.toList ∧
        ∀ word ∈ words, ∀ letter ∈ word, ¬ letter.literal → letter.char ∉ Word.shellActive := by
  rw [commandLine_toList]
  refine ⟨Word.split_join _, _, Word.letters_join _, ?_, ?_⟩
  · simp [Function.comp_def, Word.spelling_quotedLetters, words]
  · intro word member letter inWord bare active
    obtain ⟨source, -, rfl⟩ := List.mem_map.1 member
    exact bare (Word.literal_of_isSpecial inWord (Word.isSpecial_of_mem_shellActive active))

end Invocation

end ImageStaging
