/-!
# Numerals

The spellings of numbers that occur in records and messages. Hexadecimal digits are lower case.

* `Numeral.decimal`: an integer in base ten, with a leading minus sign if it is negative.
* `Numeral.hex`: a number in base sixteen, without a mark and without leading zeros.
* `Numeral.hexPadded`: the same, filled with zeros to a least number of digits.
-/

namespace RiscvListing.Numeral

/-- The digits of `n` in base sixteen, the most significant one first; zero has one digit. -/
def hex (n : Nat) : String := String.ofList (Nat.toDigits 16 n)

/-- As `hex`, with zeros in front up to `width` digits. -/
def hexPadded (width n : Nat) : String :=
  String.ofList (List.leftpad width '0' (Nat.toDigits 16 n))

/-- A natural number in base ten. -/
def natural (n : Nat) : String := String.ofList (Nat.toDigits 10 n)

/-- An integer in base ten. -/
def decimal : Int → String
  | .ofNat n => natural n
  | .negSucc n => "-" ++ natural (n + 1)

end RiscvListing.Numeral
