import SchemaHeaders.Text.Decimal

/-!
# Characters given by their codes

`charOfCode?` is the character of a code point, and `charOfHex?` that of the hexadecimal
digits of one. Halves of surrogate pairs are no characters.
-/

namespace SchemaHeaders.Text

/-- The character with a code, if there is one. -/
def charOfCode? (n : Nat) : Option Char :=
  if n < 0xD800 ∨ (0xE000 ≤ n ∧ n ≤ 0x10FFFF) then some (Char.ofNat n) else none

/-- The character whose code hexadecimal digits stand for. -/
def charOfHex? (ds : List Char) : Option Char := (value? 16 ds).bind charOfCode?

end SchemaHeaders.Text
