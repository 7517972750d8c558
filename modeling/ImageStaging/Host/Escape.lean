import ImageStaging.Text.Utf8

/-!
# Escapes in printed words

A backslash and a letter stand for a control character, a backslash and digits for the byte of that
number, and `\c` ends all printing. A backslash before anything else is printed as it is.
-/

namespace ImageStaging.Host.Escape

/-- What some readers of escapes know and others do not. -/
structure Style where
  /-- Numbers in hexadecimal digits after an `x`. -/
  hexadecimal : Bool := true
  /-- A number that begins with a zero has three more digits and not two. -/
  leadingZero : Bool := true
  /-- The letter that ends all printing. -/
  ending : Bool := true

/-- The byte that a letter after a backslash stands for. -/
def byteOf? (letter : Char) : Option UInt8 :=
  match letter with
  | 'a' => some 0x07
  | 'b' => some 0x08
  | 'e' => some 0x1B
  | 'f' => some 0x0C
  | 'n' => some 0x0A
  | 'r' => some 0x0D
  | 't' => some 0x09
  | 'v' => some 0x0B
  | '\\' => some 0x5C
  | _ => none

def digitValue? (base : Nat) (c : Char) : Option Nat :=
  let value :=
    if '0' ≤ c && c ≤ '9' then some (c.toNat - '0'.toNat)
    else if 'a' ≤ c && c ≤ 'f' then some (c.toNat - 'a'.toNat + 10)
    else if 'A' ≤ c && c ≤ 'F' then some (c.toNat - 'A'.toNat + 10)
    else none
  value.filter (· < base)

/-- Where the printing of a word stands: in plain text, after a backslash, after an `x` behind it,
or in a number that may have more digits. -/
inductive Reading
  | plain
  | escaped
  | hexadecimal
  | number (base value digitsLeft : Nat)

/-- What a word that ends here still has to print. -/
def finish : Reading → Bytes
  | .plain => []
  | .escaped => [0x5C]
  | .hexadecimal => [0x5C, 0x78]
  | .number _ value _ => [UInt8.ofNat value]

/-- What a character prints together with what was held back, and where printing stands after it;
`none` if it ends all printing. -/
def step (style : Style) (c : Char) : Reading → Bytes × Option Reading
  | .plain => if c = '\\' then ([], some .escaped) else (Utf8.encode [c], some .plain)
  | .escaped =>
    if c = 'c' && style.ending then ([], none)
    else if c = 'x' && style.hexadecimal then ([], some .hexadecimal)
    else
      match digitValue? 8 c, byteOf? c with
      | some digit, _ =>
        ([], some (.number 8 digit (if digit = 0 && style.leadingZero then 3 else 2)))
      | none, some byte => ([byte], some .plain)
      | none, none => (0x5C :: Utf8.encode [c], some .plain)
  | .hexadecimal =>
    match digitValue? 16 c with
    | some digit => ([], some (.number 16 digit 1))
    | none =>
      if c = '\\' then ([0x5C, 0x78], some .escaped)
      else (0x5C :: 0x78 :: Utf8.encode [c], some .plain)
  | .number base value digitsLeft =>
    match (digitValue? base c).filter fun _ => 0 < digitsLeft with
    | some digit => ([], some (.number base (value * base + digit) (digitsLeft - 1)))
    | none =>
      if c = '\\' then ([UInt8.ofNat value], some .escaped)
      else (UInt8.ofNat value :: Utf8.encode [c], some .plain)

/-- The bytes of a word, and whether it ended all printing. -/
def printFrom (style : Style) : Reading → Text → Bytes × Bool
  | reading, [] => (finish reading, false)
  | reading, c :: rest =>
    match step style c reading with
    | (bytes, none) => (bytes, true)
    | (bytes, some next) =>
      let (more, ended) := printFrom style next rest
      (bytes ++ more, ended)

def print (style : Style) (word : Text) : Bytes × Bool :=
  printFrom style .plain word

end ImageStaging.Host.Escape
