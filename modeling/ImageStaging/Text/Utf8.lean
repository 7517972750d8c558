import ImageStaging.Text.Basic

/-!
# Bytes and the UTF-8 encoding

Decoding reads one byte at a time. Between characters the decoder is `none`; inside one it holds
the bits read so far, how many bytes are owed, and the range of the next byte, which is narrower
than `80`–`BF` after the lead bytes that could begin an overlong form, a surrogate or a value
above `10FFFF`. A byte outside the range closes an ill-formed part and is read again as the start
of the next one, so each ill-formed part is as long as a well-formed character could make it.
-/

namespace ImageStaging

abbrev Bytes := List UInt8

namespace Utf8

def encode (text : Text) : Bytes :=
  text.flatMap String.utf8EncodeChar

/-- A character of which at least one byte is still owed. -/
structure Partial where
  bits : Nat
  owed : Nat
  low : Nat
  high : Nat
  deriving DecidableEq, Repr

/-- The decoded characters, `none` standing for an ill-formed part, and what is left open. -/
abbrev Step := List (Option Char) × Option Partial

def start (byte : UInt8) : Step :=
  let value := byte.toNat
  if value < 0x80 then ([some (Char.ofNat value)], none)
  else if value < 0xC2 then ([none], none)
  else if value < 0xE0 then ([], some ⟨value - 0xC0, 1, 0x80, 0xBF⟩)
  else if value = 0xE0 then ([], some ⟨0, 2, 0xA0, 0xBF⟩)
  else if value = 0xED then ([], some ⟨0xD, 2, 0x80, 0x9F⟩)
  else if value < 0xF0 then ([], some ⟨value - 0xE0, 2, 0x80, 0xBF⟩)
  else if value = 0xF0 then ([], some ⟨0, 3, 0x90, 0xBF⟩)
  else if value < 0xF4 then ([], some ⟨value - 0xF0, 3, 0x80, 0xBF⟩)
  else if value = 0xF4 then ([], some ⟨4, 3, 0x80, 0x8F⟩)
  else ([none], none)

def resume (held : Partial) (byte : UInt8) : Step :=
  let value := byte.toNat
  if held.low ≤ value && value ≤ held.high then
    let bits := held.bits * 64 + (value - 0x80)
    if held.owed ≤ 1 then ([some (Char.ofNat bits)], none)
    else ([], some ⟨bits, held.owed - 1, 0x80, 0xBF⟩)
  else
    let again := start byte
    (none :: again.1, again.2)

def step : Option Partial → UInt8 → Step
  | none, byte => start byte
  | some held, byte => resume held byte

def decodeFrom : Option Partial → Bytes → List (Option Char)
  | none, [] => []
  | some _, [] => [none]
  | state, byte :: rest =>
    let next := step state byte
    next.1 ++ decodeFrom next.2 rest

/-- The characters of a byte string, with `none` for each ill-formed part. -/
def parts (bytes : Bytes) : List (Option Char) :=
  decodeFrom none bytes

/-- The text of a byte string, if no part of it is ill-formed. -/
def decode? (bytes : Bytes) : Option Text :=
  (parts bytes).mapM id

def replacement : Char := '\uFFFD'

/-- The text of a byte string, with one replacement character for each ill-formed part. -/
def decodeLossy (bytes : Bytes) : Text :=
  (parts bytes).map fun part => part.getD replacement

end Utf8

end ImageStaging
