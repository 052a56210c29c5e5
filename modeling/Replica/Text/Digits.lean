/-!
# Numbers in digits

Hexadecimal digits: `Hex.digits` writes a number with lower-case digits and no padding, `Hex.ofBytes`
writes two digits for each byte, and `Hex.value?` reads one digit in either case.

Decimal integers: `Integer.ofBytes?` reads an integer from bytes, which are an optional sign, at least
one ASCII digit, and nothing else. The fixed-width readers refuse a number out of range.
-/

namespace Replica.Text.Hex

/-- The lower-case digit of a number below sixteen. -/
def digit (n : Nat) : Char :=
  if n < 10 then Char.ofNat ('0'.toNat + n) else Char.ofNat ('a'.toNat + (n - 10))

/-- The value of a digit, in either case. -/
def value? (c : Char) : Option Nat :=
  if '0' ≤ c ∧ c ≤ '9' then some (c.toNat - '0'.toNat)
  else if 'a' ≤ c ∧ c ≤ 'f' then some (c.toNat - 'a'.toNat + 10)
  else if 'A' ≤ c ∧ c ≤ 'F' then some (c.toNat - 'A'.toNat + 10)
  else none

/-- The digits of `n`, without padding. -/
def digits (n : Nat) : List Char := Nat.toDigits 16 n

/-- The `width` lowest digits of `n`, highest first. -/
def padded : (width : Nat) → (n : Nat) → List Char
  | 0, _ => []
  | width + 1, n => padded width (n / 16) ++ [digit (n % 16)]

/-- The number that a list of digits spells. -/
def number? (cs : List Char) : Option Nat :=
  cs.foldlM (fun n c => (value? c).map (16 * n + ·)) 0

/-- Two digits for each byte. -/
def ofBytes (bytes : List UInt8) : String :=
  String.ofList (bytes.flatMap fun b => padded 2 b.toNat)

end Replica.Text.Hex

namespace Replica.Text.Integer

/-- The value of an ASCII digit. -/
def digit? (b : UInt8) : Option Nat :=
  if 0x30 ≤ b ∧ b ≤ 0x39 then some (b.toNat - 0x30) else none

/-- The number that a list of digits spells; there is at least one. -/
def digits? : List UInt8 → Option Nat
  | [] => none
  | bytes => bytes.foldlM (fun n b => (digit? b).map (10 * n + ·)) 0

/-- The integer that the bytes spell. -/
def ofBytes? : List UInt8 → Option Int
  | 0x2B :: rest => (digits? rest).map Int.ofNat
  | 0x2D :: rest => (digits? rest).map fun n => -(n : Int)
  | bytes => (digits? bytes).map Int.ofNat

/-- `n` as a signed 64-bit integer, if it is in range. -/
def toInt64? (n : Int) : Option Int64 :=
  if -9223372036854775808 ≤ n ∧ n ≤ 9223372036854775807 then some (Int64.ofInt n) else none

/-- `n` as an unsigned 64-bit integer, if it is in range. -/
def toUInt64? (n : Int) : Option UInt64 :=
  if 0 ≤ n ∧ n ≤ 18446744073709551615 then some (UInt64.ofNat n.toNat) else none

/-- `n` as a byte, if it is in range. -/
def toUInt8? (n : Int) : Option UInt8 :=
  if 0 ≤ n ∧ n ≤ 255 then some (UInt8.ofNat n.toNat) else none

/-- The signed 64-bit integer that the bytes spell. -/
def int64OfBytes? (bytes : List UInt8) : Option Int64 := (ofBytes? bytes).bind toInt64?

/-- The unsigned 64-bit integer that a text spells; a minus sign is no part of it. -/
def uint64OfString? (text : String) : Option UInt64 :=
  match text.toUTF8.toList with
  | 0x2D :: _ => none
  | bytes => (ofBytes? bytes).bind toUInt64?

end Replica.Text.Integer
