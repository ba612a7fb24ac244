import Conduit.Text.Utf8

/-!
# Hexadecimal digits

Digits are written in lower case and read in either. A byte has two, the high one first.
-/

namespace Conduit

def Json.hexDigit (n : Nat) : Char :=
  if n < 10 then Char.ofNat (48 + n) else Char.ofNat (87 + n)

/-- The value of a digit in ASCII. -/
def Json.hexValue? (b : UInt8) : Option Nat :=
  if 0x30 ≤ b ∧ b ≤ 0x39 then some (b.toNat - 48)
  else if 0x41 ≤ b ∧ b ≤ 0x46 then some (b.toNat - 55)
  else if 0x61 ≤ b ∧ b ≤ 0x66 then some (b.toNat - 87)
  else none

namespace Hex

def ofByte (b : UInt8) : List Char := [Json.hexDigit (b.toNat / 16), Json.hexDigit (b.toNat % 16)]

def encode (bytes : Bytes) : String := String.ofList (bytes.flatMap ofByte)

/-- A character that is no digit counts as zero, and half a byte at the end is left out. -/
def decode (text : String) : Bytes := go text.toList
where
  value (c : Char) : Nat :=
    if c.toNat < 128 then (Json.hexValue? (UInt8.ofNat c.toNat)).getD 0 else 0
  go : List Char → Bytes
    | a :: b :: rest => UInt8.ofNat (16 * value a + value b) :: go rest
    | _ => []

end Hex

end Conduit
