import RiscvListing.Word
import Mathlib

/-!
# Taking groups out of words and putting them back

`bitGroup` reads a run of bits; this module adds the opposite direction and the laws between the
two.

* `place value lo`: the word that has `value` at bit `lo` and upwards, and no other bit.
* `span lo width`: the word whose ones are bits `lo`, …, `lo + width - 1`.
* **Reading what was placed** (`bitGroup_place_self`, `bitGroup_place_of_lt`,
  `bitGroup_place_of_le`): a placed value reads back at its own position and leaves every group
  above and below it clear. Together with `bitGroup_or` this reads any group of a word that
  was put together by `|||`: the four are the rules of `simp (disch := omega)`.
* **Placing what was read** (`place_bitGroup`): a group put back in its place is the word with all
  other bits cleared, `w &&& span lo width`. A word is therefore the `|||` of any groups whose
  spans cover it.

Everything is proved bit by bit, from `testBit_bitGroup` and `getLsbD_place`.
-/

namespace RiscvListing

/-! ## Bits of a group -/

/-- A bit group by division and remainder. -/
theorem bitGroup_eq (n lo width : Nat) : bitGroup n lo width = n / 2 ^ lo % 2 ^ width := by
  unfold bitGroup
  rw [Nat.shiftRight_eq_div_pow, Nat.one_shiftLeft]

/-- Bit `i` of a group is bit `lo + i` of the number. -/
theorem testBit_bitGroup (n lo width i : Nat) :
    (bitGroup n lo width).testBit i = (decide (i < width) && n.testBit (lo + i)) := by
  unfold bitGroup
  rw [Nat.one_shiftLeft, Nat.testBit_mod_two_pow, Nat.testBit_shiftRight]

/-- A group of a disjunction is the disjunction of the groups. -/
@[simp] theorem bitGroup_or (a b lo width : Nat) :
    bitGroup (a ||| b) lo width = bitGroup a lo width ||| bitGroup b lo width := by
  unfold bitGroup
  rw [Nat.shiftRight_or_distrib, Nat.one_shiftLeft, Nat.or_mod_two_pow]

@[simp] theorem bitGroup_zero (lo width : Nat) : bitGroup 0 lo width = 0 := by
  rw [bitGroup_eq, Nat.zero_div, Nat.zero_mod]

/-- A group inside a group is a group of the number itself. -/
theorem bitGroup_bitGroup (n lo width lo' width' : Nat) (h : lo' + width' ≤ width) :
    bitGroup (bitGroup n lo width) lo' width' = bitGroup n (lo + lo') width' := by
  apply Nat.eq_of_testBit_eq
  intro i
  simp only [testBit_bitGroup, Nat.add_assoc]
  by_cases hi : i < width'
  · have hw : lo' + i < width := by omega
    simp [hi, hw]
  · simp [hi]

/-- Bits above a group have no part in it. -/
theorem bitGroup_mod_two_pow {n lo width top : Nat} (h : lo + width ≤ top) :
    bitGroup (n % 2 ^ top) lo width = bitGroup n lo width := by
  have hlow : n % 2 ^ top = bitGroup n 0 top := by rw [bitGroup_eq, Nat.pow_zero, Nat.div_one]
  rw [hlow, bitGroup_bitGroup n 0 top lo width h, Nat.zero_add]

/-! ## The groups of the layouts -/

namespace Word

theorem opcode_lt (w : Word) : Word.opcode w < 2 ^ 7 := bitGroup_lt w.toNat 0 7

theorem rd_lt (w : Word) : Word.rd w < 2 ^ 5 := bitGroup_lt w.toNat 7 5

theorem funct3_lt (w : Word) : Word.funct3 w < 2 ^ 3 := bitGroup_lt w.toNat 12 3

theorem rs1_lt (w : Word) : Word.rs1 w < 2 ^ 5 := bitGroup_lt w.toNat 15 5

theorem rs2_lt (w : Word) : Word.rs2 w < 2 ^ 5 := bitGroup_lt w.toNat 20 5

theorem funct7_lt (w : Word) : Word.funct7 w < 2 ^ 7 := bitGroup_lt w.toNat 25 7

theorem immediate_lt (w : Word) : Word.immediate w < 2 ^ 12 := bitGroup_lt w.toNat 20 12

theorem upper_lt (w : Word) : Word.upper w < 2 ^ 20 := bitGroup_lt w.toNat 12 20

/-- The opcode is what is left of the word under seven ones. -/
theorem toNat_and_opcode (w : Word) : (w &&& 0x7F).toNat = Word.opcode w := by
  unfold Word.opcode
  rw [bitGroup_eq, BitVec.toNat_and, Nat.pow_zero, Nat.div_one]
  exact Nat.and_two_pow_sub_one_eq_mod w.toNat 7

end Word

/-! ## Placing a value -/

/-- The word with `value` at bit `lo` and upwards. Bits pushed beyond the word are lost. -/
def place (value lo : Nat) : Word := BitVec.ofNat 32 value <<< lo

/-- Bit `i` of a placed value is bit `i - lo` of the value. -/
theorem getLsbD_place (value lo i : Nat) :
    (place value lo).getLsbD i =
      (decide (i < 32) && decide (lo ≤ i) && value.testBit (i - lo)) := by
  unfold place
  rw [BitVec.getLsbD_shiftLeft, BitVec.getLsbD_ofNat]
  by_cases hi : i < 32
  · by_cases hlo : lo ≤ i
    · have : i - lo < 32 := by omega
      simp [hi, hlo, this]
    · simp [hlo]
  · simp [hi]

@[simp] theorem place_zero (lo : Nat) : place 0 lo = 0 := BitVec.zero_shiftLeft lo

/-- A value that fits reads back at the place where it was put. -/
@[simp] theorem bitGroup_place_self {value lo width : Nat} (hv : value < 2 ^ width)
    (hfit : lo + width ≤ 32) : bitGroup (place value lo).toNat lo width = value := by
  apply Nat.eq_of_testBit_eq
  intro i
  rw [testBit_bitGroup, BitVec.testBit_toNat, getLsbD_place]
  by_cases hi : i < width
  · have : lo + i < 32 := by omega
    simp [hi, this]
  · have : value.testBit i = false :=
      Nat.testBit_lt_two_pow (Nat.lt_of_lt_of_le hv (Nat.pow_le_pow_right (by omega) (by omega)))
    simp [hi, this]

/-- A value that ends below a group leaves the group clear. -/
@[simp] theorem bitGroup_place_of_lt {value lo width lo' : Nat} (hlo : lo' ≤ lo)
    (hv : value < 2 ^ (lo - lo')) : bitGroup (place value lo').toNat lo width = 0 := by
  apply Nat.eq_of_testBit_eq
  intro i
  rw [testBit_bitGroup, BitVec.testBit_toNat, getLsbD_place, Nat.zero_testBit]
  have : value.testBit (lo + i - lo') = false :=
    Nat.testBit_lt_two_pow (Nat.lt_of_lt_of_le hv (Nat.pow_le_pow_right (by omega) (by omega)))
  simp [this]

/-- A value that is placed above a group leaves the group clear. -/
@[simp] theorem bitGroup_place_of_le {value lo width lo' : Nat} (hlo : lo + width ≤ lo') :
    bitGroup (place value lo').toNat lo width = 0 := by
  apply Nat.eq_of_testBit_eq
  intro i
  rw [testBit_bitGroup, BitVec.testBit_toNat, getLsbD_place, Nat.zero_testBit]
  by_cases hi : i < width
  · have : ¬ lo' ≤ lo + i := by omega
    simp [this]
  · simp [hi]

/-! ## Spans -/

/-- The word whose ones are the `width` bits from bit `lo` upwards. -/
def span (lo width : Nat) : Word := place (2 ^ width - 1) lo

/-- The ones of a span. -/
theorem getLsbD_span (lo width i : Nat) :
    (span lo width).getLsbD i =
      (decide (i < 32) && decide (lo ≤ i) && decide (i - lo < width)) := by
  unfold span
  rw [getLsbD_place, Nat.testBit_two_pow_sub_one]

/-- A group put back in its place is the word cut down to the span of the group. -/
theorem place_bitGroup (w : Word) (lo width : Nat) :
    place (bitGroup w.toNat lo width) lo = w &&& span lo width := by
  apply BitVec.eq_of_getLsbD_eq
  intro i hi
  rw [BitVec.getLsbD_and, getLsbD_place, getLsbD_span, testBit_bitGroup, BitVec.testBit_toNat]
  by_cases hlo : lo ≤ i
  · have : lo + (i - lo) = i := by omega
    simp [hi, hlo, this, Bool.and_comm]
  · simp [hlo]

end RiscvListing
