import AnnotationCheck.Text.Basic

/-!
Hexadecimal numbers and the characters they name.

`hexNumber?` and `hexDigits` are inverse to each other on numbers of two digits (`hexNumber?_hexDigits`).
-/

namespace AnnotationCheck.Text

/-- The value of a hexadecimal digit, in either case. -/
def hexValue? (c : Char) : Option Nat :=
  if c.isDigit then some (c.toNat - '0'.toNat)
  else if 'a'.toNat ≤ c.toNat ∧ c.toNat ≤ 'f'.toNat then some (c.toNat - 'a'.toNat + 10)
  else if 'A'.toNat ≤ c.toNat ∧ c.toNat ≤ 'F'.toNat then some (c.toNat - 'A'.toNat + 10)
  else none

/-- The number that hexadecimal digits spell behind those of `high`. -/
def hexNumberFrom (high : Nat) : Text → Option Nat
  | [] => some high
  | c :: rest => (hexValue? c).bind fun digit => hexNumberFrom (16 * high + digit) rest

/-- The number that hexadecimal digits spell. -/
def hexNumber? (digits : Text) : Option Nat := hexNumberFrom 0 digits

/-- The two hexadecimal digits of a number below 256. -/
def hexDigits (number : Nat) : Text := [Nat.digitChar (number / 16), Nat.digitChar (number % 16)]

theorem hexNumber?_hexDigits {number : Nat} (small : number < 256) :
    hexNumber? (hexDigits number) = some number := by
  revert number
  decide +kernel

/-- The character of a code point, if it is that of a character. -/
def charOf? (point : Nat) : Option Char := if point.isValidChar then some (Char.ofNat point) else none

end AnnotationCheck.Text
