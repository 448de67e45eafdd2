import TabFormat.Text.Basic

/-!
# Digits

The values of digits and of sequences of digits, and the reading of natural numbers in decimal
notation.
-/

namespace TabFormat.Text

/-- The value of a hexadecimal digit. -/
def hexValue? (c : Char) : Option Nat :=
  if c.isDigit then some (c.toNat - '0'.toNat)
  else if 'a' ≤ c ∧ c ≤ 'f' then some (c.toNat - 'a'.toNat + 10)
  else if 'A' ≤ c ∧ c ≤ 'F' then some (c.toNat - 'A'.toNat + 10)
  else none

/-- Whether the character is a hexadecimal digit. -/
def isHexDigit (c : Char) : Bool :=
  (hexValue? c).isSome

/-- The value of digits in a base of at most 16. -/
def ofDigits (base : Nat) (digits : Text) : Nat :=
  digits.foldl (fun n c => base * n + (hexValue? c).getD 0) 0

example : ofDigits 16 "fF0".toList = 4080 := by decide

/-- The number whose decimal digits a text is. There must be a digit, and nothing else. -/
def decimal? (s : Text) : Option Nat :=
  if s.isEmpty || !s.all Char.isDigit then none else some (ofDigits 10 s)

/-- The number that a text is. A plus sign may come before the digits. -/
def natural? : Text → Option Nat
  | '+' :: s => decimal? s
  | s => decimal? s

example : natural? "+012".toList = some 12 ∧ natural? "+".toList = none ∧
    natural? "++1".toList = none := by decide

/-- The largest natural number of 64 bits. -/
def wordLimit : Nat := 18446744073709551615

/-- The least number that is rounded beyond the numbers of double precision. -/
def doubleLimit : Nat := Nat.pow 2 1024 - Nat.pow 2 970

end TabFormat.Text
