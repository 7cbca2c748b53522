import RiscvListing.Word

/-!
# Immediates

Three layouts scatter the bits of a signed immediate over the word. This module puts the groups
back in order and reads them in two's complement.

* `signExtend field n`: the low `n` bits of `field` as a signed number.
* `signExtend? field n`: the same, refused for a width that is not between 1 and 32.
* `storeOffset`, `branchOffset`, `jumpOffset`: the offsets of the S, B and J layouts.

The groups are natural numbers of any size; bits above a group's width do not reach the result.
-/

namespace RiscvListing

/-- The low `n` bits of `field` in two's complement: the sign bit is moved to the top of a word
and the word is shifted back arithmetically. Meant for `1 ≤ n ≤ 32`. -/
def signExtend (field : Word) (n : Nat) : Int :=
  ((field <<< (32 - n)).sshiftRight (32 - n)).toInt

/-- `signExtend` on the widths for which a two's-complement number exists in a word. -/
def signExtend? (field : Word) (n : Nat) : Option Int :=
  if 1 ≤ n ∧ n ≤ 32 then some (signExtend field n) else none

/-- The number of the low 12 bits of an I-layout immediate. -/
def immediateValue (imm : Nat) : Int := signExtend (BitVec.ofNat 32 imm) 12

/-- The offset of a store: `imm7` holds offset bits 11 to 5 and `imm5` bits 4 to 0. -/
def storeOffset (imm5 imm7 : Nat) : Int :=
  signExtend (BitVec.ofNat 32 (imm7 <<< 5 + bitGroup imm5 0 5)) 12

/-- The offset of a branch: `imm5` holds offset bits 4 to 1 and then 11, `imm7` holds bit 12 and
then bits 10 to 5. Bit 0 of the offset is clear. -/
def branchOffset (imm5 imm7 : Nat) : Int :=
  signExtend (BitVec.ofNat 32
    (bitGroup imm7 6 1 <<< 12 + bitGroup imm5 0 1 <<< 11 +
      bitGroup imm7 0 6 <<< 5 + bitGroup imm5 1 4 <<< 1)) 13

/-- The offset of a jump: the 20 bits of `imm` are offset bit 20, then 10 to 1, then 11, then 19
to 12. Bit 0 of the offset is clear. -/
def jumpOffset (imm : Nat) : Int :=
  signExtend (BitVec.ofNat 32
    (bitGroup imm 19 1 <<< 20 + bitGroup imm 0 8 <<< 12 +
      bitGroup imm 8 1 <<< 11 + bitGroup imm 9 10 <<< 1)) 21

end RiscvListing
