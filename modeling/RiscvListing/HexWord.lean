import RiscvListing.Word

/-!
# Hexadecimal words

The spelling of a word in hexadecimal input: an optional `0x` or `0X`, then one to eight
hexadecimal digits in either case, with underscores anywhere among them.

* `HexWord.digitValue?`: the value of a digit.
* `HexWord.body`: what follows the mark.
* `HexWord.parse?`: the word that a text spells.
-/

namespace RiscvListing.HexWord

/-- The value of a hexadecimal digit. -/
def digitValue? (c : Char) : Option Nat :=
  if '0' ≤ c ∧ c ≤ '9' then some (c.toNat - '0'.toNat)
  else if 'a' ≤ c ∧ c ≤ 'f' then some (c.toNat - 'a'.toNat + 10)
  else if 'A' ≤ c ∧ c ≤ 'F' then some (c.toNat - 'A'.toNat + 10)
  else none

/-- The text after the mark, if there is one. -/
def body : List Char → List Char
  | '0' :: 'x' :: rest => rest
  | '0' :: 'X' :: rest => rest
  | text => text

/-- The number that a list of digits spells, the most significant digit first. -/
def value (digits : List Nat) : Nat := digits.foldl (fun n d => 16 * n + d) 0

/-- The word that a text spells. -/
def parse? (text : List Char) : Option Word := do
  let digits ← ((body text).filter (· ≠ '_')).mapM digitValue?
  if 1 ≤ digits.length ∧ digits.length ≤ 8 then some (BitVec.ofNat 32 (value digits)) else none

end RiscvListing.HexWord
