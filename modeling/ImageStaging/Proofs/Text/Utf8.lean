import ImageStaging.Text.Utf8
import Mathlib.Algebra.Group.Nat.Defs

/-!
# What an encoding tells

An encoding determines its text, and a byte of the ASCII range in it can only come from the
character with that code. Read byte by byte an encoding gives the text back, and an ASCII character
that was read can only come from the byte with its code.
-/

namespace ImageStaging.Utf8

theorem encode_injective {first second : Text} (same : encode first = encode second) :
    first = second := by
  have encoded : first.utf8Encode = second.utf8Encode := by
    unfold List.utf8Encode
    exact congrArg _ same
  have decoded := congrArg (fun bytes => bytes.utf8Decode?) encoded
  simp at decoded
  exact decoded

theorem lead_bit_of_or {byte : UInt8} (mask : UInt8) (lead : 0x80 ≤ mask.toNat) :
    0x80 ≤ (byte ||| mask).toNat := by
  rw [UInt8.toNat_or]
  exact Nat.le_trans lead Nat.right_le_or

/-- Every byte of a character outside the ASCII range has its leading bit set. -/
theorem code_of_mem {byte : UInt8} {c : Char} (ascii : byte.toNat < 0x80)
    (member : byte ∈ String.utf8EncodeChar c) : c.toNat = byte.toNat := by
  rw [String.utf8EncodeChar_eq_utf8EncodeCharFast, String.utf8EncodeCharFast] at member
  have notLead {rest : UInt8} (mask : UInt8) (lead : 0x80 ≤ mask.toNat) : byte ≠ rest ||| mask := by
    rintro rfl
    exact absurd (lead_bit_of_or mask lead) (Nat.not_le.2 ascii)
  split at member
  · next small =>
    obtain rfl := List.mem_singleton.1 member
    have small : c.toNat ≤ 0x7f := small
    simp only [Char.toNat, UInt32.toNat_toUInt8] at small ⊢
    omega
  · split at member
    · simp only [List.mem_cons, List.not_mem_nil, or_false] at member
      rcases member with same | same
      · exact absurd same (notLead _ (by decide))
      · exact absurd same (notLead _ (by decide))
    · split at member
      · simp only [List.mem_cons, List.not_mem_nil, or_false] at member
        rcases member with same | same | same
        · exact absurd same (notLead _ (by decide))
        · exact absurd same (notLead _ (by decide))
        · exact absurd same (notLead _ (by decide))
      · simp only [List.mem_cons, List.not_mem_nil, or_false] at member
        rcases member with same | same | same | same
        · exact absurd same (notLead _ (by decide))
        · exact absurd same (notLead _ (by decide))
        · exact absurd same (notLead _ (by decide))
        · exact absurd same (notLead _ (by decide))

/-- A byte of the ASCII range is the code of a character of the text. -/
theorem mem_of_mem_encode {c : Char} {text : Text} (ascii : c.toNat < 0x80)
    (member : c.toNat.toUInt8 ∈ encode text) : c ∈ text := by
  have code : c.toNat.toUInt8.toNat = c.toNat := by
    simp only [Nat.toUInt8, UInt8.toNat_ofNat']
    omega
  obtain ⟨other, inText, inBytes⟩ := List.mem_flatMap.1 member
  have same := code_of_mem (by omega) inBytes
  rw [code] at same
  rwa [← Char.toNat_inj.1 same]

/-! ## Decoding what was encoded -/

section Decoding

variable {held : Partial} {byte : UInt8} {value owed low high bits next : Nat} {rest : Bytes}

theorem decodeFrom_of_start (begins : start byte = ([], some held)) :
    decodeFrom none (byte :: rest) = decodeFrom (some held) rest := by
  rw [decodeFrom, step, begins]
  rfl

theorem resume_ofNat (atLeast : low ≤ bits + 0x80) (atMost : bits + 0x80 ≤ high)
    (few : bits < 0x40) : resume ⟨value, owed, low, high⟩ (UInt8.ofNat (bits + 0x80)) =
      if owed ≤ 1 then ([some (Char.ofNat (value * 64 + bits))], none)
      else ([], some ⟨value * 64 + bits, owed - 1, 0x80, 0xBF⟩) := by
  have isByte : (UInt8.ofNat (bits + 0x80)).toNat = bits + 0x80 :=
    UInt8.toNat_ofNat_of_lt' (show bits + 0x80 < 256 by omega)
  rw [resume]
  simp only [isByte, atLeast, atMost, decide_true, Bool.and_self, if_true, Nat.add_sub_cancel]

/-- A byte inside a character adds six bits to it. -/
theorem decodeFrom_inside (atLeast : low ≤ bits + 0x80) (atMost : bits + 0x80 ≤ high)
    (few : bits < 0x40) :
    decodeFrom (some ⟨value, owed + 2, low, high⟩) (UInt8.ofNat (bits + 0x80) :: rest) =
      decodeFrom (some ⟨value * 64 + bits, owed + 1, 0x80, 0xBF⟩) rest := by
  rw [decodeFrom, step, resume_ofNat atLeast atMost few, if_neg (by omega)]
  rfl

/-- The last byte of a character completes it. -/
theorem decodeFrom_last (atLeast : low ≤ bits + 0x80) (atMost : bits + 0x80 ≤ high)
    (few : bits < 0x40) :
    decodeFrom (some ⟨value, 1, low, high⟩) (UInt8.ofNat (bits + 0x80) :: rest) =
      some (Char.ofNat (value * 64 + bits)) :: decodeFrom none rest := by
  rw [decodeFrom, step, resume_ofNat atLeast atMost few, if_pos (Nat.le_refl 1)]
  rfl

theorem decodeFrom_ascii (small : bits < 0x80) :
    decodeFrom none (UInt8.ofNat bits :: rest) =
      some (Char.ofNat bits) :: decodeFrom none rest := by
  have isByte : (UInt8.ofNat bits).toNat = bits :=
    UInt8.toNat_ofNat_of_lt' (show bits < 256 by omega)
  rw [decodeFrom, step, start]
  simp only [isByte]
  rw [if_pos small]
  rfl

/-- The byte that begins a character of two bytes. -/
theorem start_two (least : 2 ≤ bits) (few : bits < 0x20) :
    start (UInt8.ofNat (bits + 0xC0)) = ([], some ⟨bits, 1, 0x80, 0xBF⟩) := by
  have isByte : (UInt8.ofNat (bits + 0xC0)).toNat = bits + 0xC0 :=
    UInt8.toNat_ofNat_of_lt' (show bits + 0xC0 < 256 by omega)
  simp only [start, isByte]
  rw [if_neg (by omega), if_neg (by omega), if_pos (by omega), Nat.add_sub_cancel]

/-- The byte that begins a character of three bytes. It lets every byte come next that neither makes
the form overlong nor the character a surrogate. -/
theorem start_three (few : bits < 0x10) (fewNext : next < 0x40)
    (notOverlong : bits = 0 → 0x20 ≤ next) (noSurrogate : bits = 0xD → next < 0x20) :
    ∃ low high, start (UInt8.ofNat (bits + 0xE0)) = ([], some ⟨bits, 2, low, high⟩) ∧
      low ≤ next + 0x80 ∧ next + 0x80 ≤ high := by
  have isByte : (UInt8.ofNat (bits + 0xE0)).toNat = bits + 0xE0 :=
    UInt8.toNat_ofNat_of_lt' (show bits + 0xE0 < 256 by omega)
  simp only [start, isByte]
  rw [if_neg (by omega), if_neg (by omega), if_neg (by omega)]
  by_cases least : bits = 0
  · rw [if_pos (by omega)]
    exact ⟨0xA0, 0xBF, by rw [least], by omega, by omega⟩
  · rw [if_neg (by omega)]
    by_cases beside : bits = 0xD
    · rw [if_pos (by omega)]
      exact ⟨0x80, 0x9F, by rw [beside], by omega, by omega⟩
    · rw [if_neg (by omega), if_pos (by omega), Nat.add_sub_cancel]
      exact ⟨0x80, 0xBF, rfl, by omega, by omega⟩

/-- The byte that begins a character of four bytes. It lets every byte come next that neither makes
the form overlong nor the character one above the last. -/
theorem start_four (few : bits < 5) (fewNext : next < 0x40)
    (notOverlong : bits = 0 → 0x10 ≤ next) (within : bits = 4 → next < 0x10) :
    ∃ low high, start (UInt8.ofNat (bits + 0xF0)) = ([], some ⟨bits, 3, low, high⟩) ∧
      low ≤ next + 0x80 ∧ next + 0x80 ≤ high := by
  have isByte : (UInt8.ofNat (bits + 0xF0)).toNat = bits + 0xF0 :=
    UInt8.toNat_ofNat_of_lt' (show bits + 0xF0 < 256 by omega)
  simp only [start, isByte]
  rw [if_neg (by omega), if_neg (by omega), if_neg (by omega), if_neg (by omega),
    if_neg (by omega), if_neg (by omega)]
  by_cases least : bits = 0
  · rw [if_pos (by omega)]
    exact ⟨0x90, 0xBF, by rw [least], by omega, by omega⟩
  · rw [if_neg (by omega)]
    by_cases greatest : bits = 4
    · rw [if_neg (by omega), if_pos (by omega)]
      exact ⟨0x80, 0x8F, by rw [greatest], by omega, by omega⟩
    · rw [if_pos (by omega), Nat.add_sub_cancel]
      exact ⟨0x80, 0xBF, rfl, by omega, by omega⟩

/-- The bytes of a character are read as that character, whatever follows them. -/
theorem decodeFrom_encodeChar (c : Char) (rest : Bytes) :
    decodeFrom none (String.utf8EncodeChar c ++ rest) = some c :: decodeFrom none rest := by
  have valid : c.val.toNat < 0xD800 ∨ 0xDFFF < c.val.toNat ∧ c.val.toNat < 0x110000 := c.valid
  have isChar : ∀ {code}, code = c.val.toNat →
      some (Char.ofNat code) :: decodeFrom none rest = some c :: decodeFrom none rest := by
    rintro _ rfl
    exact congrArg (some · :: _) (Char.ofNat_toNat c)
  simp only [String.utf8EncodeChar]
  generalize c.val.toNat = code at valid isChar ⊢
  split
  · exact (decodeFrom_ascii (by omega)).trans (isChar rfl)
  · split
    · rw [List.cons_append, decodeFrom_of_start (start_two (by omega) (by omega)), List.cons_append,
        decodeFrom_last (by omega) (by omega) (by omega)]
      exact isChar (by omega)
    · split
      · obtain ⟨low, high, begins, atLeast, atMost⟩ :=
          @start_three (code / 4096 % 16) (code / 64 % 64) (by omega) (by omega) (by omega)
            (by omega)
        rw [List.cons_append, decodeFrom_of_start begins, List.cons_append,
          decodeFrom_inside atLeast atMost (by omega), List.cons_append,
          decodeFrom_last (by omega) (by omega) (by omega)]
        exact isChar (by omega)
      · obtain ⟨low, high, begins, atLeast, atMost⟩ :=
          @start_four (code / 262144 % 8) (code / 4096 % 64) (by omega) (by omega) (by omega)
            (by omega)
        rw [List.cons_append, decodeFrom_of_start begins, List.cons_append,
          decodeFrom_inside atLeast atMost (by omega), List.cons_append,
          decodeFrom_inside (by omega) (by omega) (by omega), List.cons_append,
          decodeFrom_last (by omega) (by omega) (by omega)]
        exact isChar (by omega)

theorem parts_encode (text : Text) : parts (encode text) = text.map some := by
  induction text with
  | nil => rfl
  | cons c text ih =>
    rw [encode, List.flatMap_cons, parts, decodeFrom_encodeChar]
    exact congrArg (some c :: ·) ih

/-- A text is shown as it is. -/
theorem decodeLossy_encode (text : Text) : decodeLossy (encode text) = text := by
  rw [decodeLossy, parts_encode, List.map_map]
  exact List.map_id text

end Decoding

/-! ## What a decoded text tells -/

section Decoded

variable {state : Option Partial} {held : Partial} {byte : UInt8} {bytes : Bytes} {c : Char}

/-- What is held can only become a character of more than seven bits. -/
def Wide (held : Partial) : Prop :=
  0x80 ≤ (held.bits * 64 + (held.low - 0x80)) * 64 ^ (held.owed - 1)

theorem start_ascii (member : some c ∈ (start byte).1) : c = Char.ofNat byte.toNat := by
  unfold start at member
  dsimp only at member
  split at member
  · simpa using member
  · repeat' first
      | split at member
      | simp at member

theorem wide_start (leaves : (start byte).2 = some held) : Wide held := by
  unfold start at leaves
  dsimp only at leaves
  split at leaves
  · cases leaves
  · split at leaves
    · cases leaves
    · next low =>
      repeat' split at leaves
      all_goals first
        | (obtain rfl := Option.some.inj leaves
           simp only [Wide]
           omega)
        | simp at leaves

theorem wide_resume (wide : Wide held) {next : Partial} (leaves : (resume held byte).2 = some next) :
    Wide next := by
  unfold resume at leaves
  dsimp only at leaves
  split at leaves
  · next within =>
    split at leaves
    · cases leaves
    · next owes =>
      obtain rfl := Option.some.inj leaves
      obtain ⟨owed, isOwed⟩ : ∃ owed, held.owed = owed + 2 := ⟨held.owed - 2, by omega⟩
      simp only [Bool.and_eq_true, decide_eq_true_eq] at within
      have atLeast : held.bits * 64 + (held.low - 0x80) ≤ held.bits * 64 + (byte.toNat - 0x80) := by
        omega
      have wider := Nat.le_trans wide (Nat.mul_le_mul_right _ atLeast)
      rw [isOwed] at wider
      simp only [Wide, isOwed]
      rw [Nat.sub_self, Nat.add_zero, Nat.mul_assoc]
      simpa [Nat.pow_succ, Nat.mul_comm] using wider
  · exact wide_start leaves

theorem resume_ascii (wide : Wide held) (ascii : c.toNat < 0x80) (notNul : c ≠ '\x00')
    (member : some c ∈ (resume held byte).1) : c = Char.ofNat byte.toNat := by
  unfold resume at member
  dsimp only at member
  split at member
  · next within =>
    split at member
    · next owes =>
      exfalso
      have isChar : c = Char.ofNat (held.bits * 64 + (byte.toNat - 0x80)) :=
        Option.some.inj (List.mem_singleton.1 member)
      simp only [Bool.and_eq_true, decide_eq_true_eq] at within
      have one : held.owed - 1 = 0 := by omega
      rw [Wide, one] at wide
      by_cases valid : (held.bits * 64 + (byte.toNat - 0x80)).isValidChar
      · rw [isChar, Char.ofNat, dif_pos valid] at ascii
        have code : (Char.ofNatAux _ valid).toNat = held.bits * 64 + (byte.toNat - 0x80) := rfl
        omega
      · exact notNul (isChar.trans (by rw [Char.ofNat, dif_neg valid]; rfl))
    · cases member
  · exact start_ascii (by simpa using member)

theorem mem_of_mem_decodeFrom (wide : ∀ held, state = some held → Wide held)
    (ascii : c.toNat < 0x80) (notNul : c ≠ '\x00') (member : some c ∈ decodeFrom state bytes) :
    ∃ byte ∈ bytes, c = Char.ofNat byte.toNat := by
  induction bytes generalizing state with
  | nil =>
    cases state with
    | none => cases member
    | some held => cases List.mem_singleton.1 member
  | cons byte rest ih =>
    rw [decodeFrom] at member
    rcases List.mem_append.1 member with here | later
    · refine ⟨byte, List.mem_cons_self, ?_⟩
      cases state with
      | none => exact start_ascii here
      | some held => exact resume_ascii (wide held rfl) ascii notNul here
    · obtain ⟨found, inRest, isChar⟩ := ih (fun held leaves => by
        cases state with
        | none => exact wide_start leaves
        | some before => exact wide_resume (wide before rfl) leaves) later
      exact ⟨found, List.mem_cons_of_mem _ inRest, isChar⟩

theorem parts_of_decode? {text : Text} (decodes : decode? bytes = some text) :
    parts bytes = text.map some := by
  have general : ∀ (items : List (Option Char)) (text : Text), items.mapM id = some text →
      items = text.map some := by
    intro items
    induction items with
    | nil =>
      intro text given
      obtain rfl : [] = text := by simpa using given
      rfl
    | cons item rest ih =>
      intro text given
      rw [List.mapM_cons] at given
      cases item with
      | none => cases given
      | some first =>
        cases whole : rest.mapM id with
        | none => rw [whole] at given; cases given
        | some back =>
          rw [whole] at given
          obtain rfl : first :: back = text := Option.some.inj given
          rw [ih back whole, List.map_cons]
  exact general _ _ decodes

/-- An ASCII character of a decoded text comes from the byte with its code. -/
theorem mem_of_mem_decode {text : Text} (decodes : decode? bytes = some text)
    (ascii : c.toNat < 0x80) (notNul : c ≠ '\x00') (member : c ∈ text) :
    c.toNat.toUInt8 ∈ bytes := by
  have decoded : some c ∈ decodeFrom none bytes := by
    rw [← parts, parts_of_decode? decodes]
    exact List.mem_map_of_mem member
  obtain ⟨byte, inBytes, rfl⟩ :=
    mem_of_mem_decodeFrom (by simp) ascii notNul decoded
  have valid : byte.toNat.isValidChar := .inl (by have := byte.toNat_lt; omega)
  have code : (Char.ofNat byte.toNat).toNat = byte.toNat := by
    rw [Char.ofNat, dif_pos valid]
    rfl
  rw [code]
  simpa using inBytes

end Decoded

end ImageStaging.Utf8
