import RiscvListing.Proofs.Immediate

/-!
# Two's complement bit by bit

* `getLsbD_ofInt_signExtend`: a sign extension copies the bits of its field up to the sign bit and
  repeats the sign bit above it. Which bits are ignored (`signExtend_congr`) and what makes the
  result negative (`signExtend_lt_zero_iff`) are read off from it.
* `signExtend_eq_iff`: as a number it is determined by its range and its remainder.
* `signExtend32?`: the same in 32-bit arithmetic, step by step; a step fails just where the width is
  refused (`signExtend32?_eq_signExtend?`).
* **Two's complement at every width** (`signExtend_is_twos_complement`).
-/

namespace RiscvListing

/-! ## Sign extension -/

/-- The word of a sign extension is its number. -/
theorem toInt_ofInt_signExtend (field : Word) (n : Nat) :
    (BitVec.ofInt 32 (signExtend field n)).toInt = signExtend field n := by
  unfold signExtend
  rw [BitVec.ofInt_toInt]

section

variable (field : Word) {n : Nat} (hpos : 1 ≤ n) (hn : n ≤ 32)
include hpos hn

/-- A sign extension copies the bits below the sign bit and repeats the sign bit from there on. -/
theorem getLsbD_ofInt_signExtend {i : Nat} (hi : i < 32) :
    (BitVec.ofInt 32 (signExtend field n)).getLsbD i = field.getLsbD (min i (n - 1)) := by
  unfold signExtend
  rw [BitVec.ofInt_toInt, BitVec.getLsbD_sshiftRight]
  have hword : ¬ 32 ≤ i := by omega
  by_cases hlow : i < n
  · have hinside : 32 - n + i < 32 := by omega
    have hplace : 32 - n + i - (32 - n) = i := by omega
    have hmin : min i (n - 1) = i := by omega
    simp [hword, hinside, hplace, hmin, -BitVec.getLsbD_eq_getElem]
  · -- the bits that come in from above are the sign bit, which was moved to the top
    have houtside : ¬ 32 - n + i < 32 := by omega
    have hshift : ¬ 31 < 32 - n := by omega
    have hplace : 31 - (32 - n) = n - 1 := by omega
    have hmin : min i (n - 1) = n - 1 := by omega
    simp [hword, houtside, hshift, hplace, hmin, BitVec.msb_eq_getLsbD_last,
      -BitVec.getLsbD_eq_getElem]

/-- Bits at and above the width are ignored. -/
theorem signExtend_congr {other : Word} (h : ∀ i < n, other.getLsbD i = field.getLsbD i) :
    signExtend other n = signExtend field n := by
  have hword : BitVec.ofInt 32 (signExtend other n) = BitVec.ofInt 32 (signExtend field n) := by
    apply BitVec.eq_of_getLsbD_eq
    intro i hi
    rw [getLsbD_ofInt_signExtend other hpos hn hi, getLsbD_ofInt_signExtend field hpos hn hi]
    exact h _ (by omega)
  rw [← toInt_ofInt_signExtend field n, ← toInt_ofInt_signExtend other n, hword]

/-- A sign extension is negative just if the sign bit is set. -/
theorem signExtend_lt_zero_iff : signExtend field n < 0 ↔ field.getLsbD (n - 1) = true := by
  have hmin : min 31 (n - 1) = n - 1 := by omega
  have hsign := getLsbD_ofInt_signExtend field hpos hn (i := 31) (by decide)
  rw [hmin] at hsign
  rw [← hsign]
  have hmsb := BitVec.msb_eq_toInt (x := BitVec.ofInt 32 (signExtend field n))
  rw [toInt_ofInt_signExtend field n, BitVec.msb_eq_getLsbD_last] at hmsb
  rw [hmsb, decide_eq_true_iff]

/-- A sign extension is the one number in range that is congruent to the field. -/
theorem signExtend_eq_iff (z : Int) :
    z = signExtend field n ↔
      -2 ^ (n - 1) ≤ z ∧ z < 2 ^ (n - 1) ∧ z ≡ field.toNat [ZMOD 2 ^ n] := by
  have hpow : (2 : Int) ^ n = 2 * 2 ^ (n - 1) := by
    rw [← pow_succ']
    congr 1
    omega
  have hlow : (2 * 2 ^ (n - 1) : Int) / 2 = 2 ^ (n - 1) := by omega
  have hhigh : (2 * 2 ^ (n - 1) + 1 : Int) / 2 = 2 ^ (n - 1) := by omega
  rw [eq_comm, signExtend_eq_bmod field hpos hn, Int.bmod_eq_iff (Nat.two_pow_pos n),
    Int.modEq_comm, Int.modEq_iff_dvd]
  push_cast
  rw [hpow, hlow, hhigh]

end

/-! ## In 32-bit arithmetic -/

/-- A difference of 32-bit numbers, unless it is negative. -/
def sub32? (a b : Word) : Option Word := if a.usubOverflow b then none else some (a - b)

/-- A word shifted to the left, unless by the length of a word or more. -/
def shiftLeft32? (a amount : Word) : Option Word :=
  if amount.toNat < 32 then some (a <<< amount) else none

/-- A word shifted to the right with its sign, unless by the length of a word or more. -/
def shiftRight32? (a amount : Word) : Option Word :=
  if amount.toNat < 32 then some (a.sshiftRight' amount) else none

/-- The steps of a sign extension on 32-bit numbers, without a check of the width. -/
def signExtend32? (field width : Word) : Option Int := do
  let amount ← sub32? 32 width
  let moved ← shiftLeft32? field amount
  let back ← shiftRight32? moved amount
  return back.toInt

/-- The amount of the two shifts, if the width is not larger than a word. -/
theorem sub32?_eq_some {width : Word} (h : width.toNat ≤ 32) :
    ∃ amount, sub32? 32 width = some amount ∧ amount.toNat = 32 - width.toNat := by
  have hoverflow : BitVec.usubOverflow 32 width = false := decide_eq_false (Nat.not_lt.mpr h)
  refine ⟨32 - width, ?_, ?_⟩
  · rw [sub32?, hoverflow]
    rfl
  · exact BitVec.toNat_sub_of_le h

/-- **A step fails just where the width is refused**, and otherwise the steps come to the sign
extension. -/
theorem signExtend32?_eq_signExtend? (field width : Word) :
    signExtend32? field width = signExtend? field width.toNat := by
  unfold signExtend32? signExtend?
  by_cases hle : width.toNat ≤ 32
  · obtain ⟨amount, hsub, hamount⟩ := sub32?_eq_some hle
    rw [hsub, Option.bind_eq_bind, Option.bind_some]
    by_cases hpos : 1 ≤ width.toNat
    · have hlt : amount.toNat < 32 := by omega
      rw [if_pos ⟨hpos, hle⟩, shiftLeft32?, if_pos hlt, Option.bind_some, shiftRight32?,
        if_pos hlt, Option.bind_some, BitVec.shiftLeft_eq', BitVec.sshiftRight_eq', hamount]
      rfl
    · -- the width zero is the one for which only the shifts fail
      have hlt : ¬ amount.toNat < 32 := by omega
      rw [if_neg fun h => hpos h.1, shiftLeft32?, if_neg hlt, Option.bind_none]
  · have hoverflow : BitVec.usubOverflow 32 width = true := decide_eq_true (Nat.not_le.mp hle)
    rw [if_neg fun h => hle h.2, sub32?, hoverflow]
    rfl

/-- **Two's complement at every width.** A width is refused just if it is not between 1 and 32.
Otherwise the result is the one number from `-2 ^ (n - 1)` up to `2 ^ (n - 1) - 1` that is congruent
to the field modulo `2 ^ n`. It has the same low `n` bits as the field, is negative just if bit
`n - 1` is set, and does not depend on the bits above. In 32-bit arithmetic the same widths are the
ones for which the difference is not negative and no shift is by a whole word or more. -/
theorem signExtend_is_twos_complement (field : Word) (n : Nat) :
    (signExtend? field n = none ↔ ¬ (1 ≤ n ∧ n ≤ 32)) ∧
    (1 ≤ n → n ≤ 32 → ∃ r, signExtend? field n = some r ∧
      (∀ z : Int, z = r ↔
        -2 ^ (n - 1) ≤ z ∧ z < 2 ^ (n - 1) ∧ z ≡ field.toNat [ZMOD 2 ^ n]) ∧
      (r < 0 ↔ field.getLsbD (n - 1) = true) ∧
      (∀ i < n, (BitVec.ofInt 32 r).getLsbD i = field.getLsbD i) ∧
      ∀ other : Word, (∀ i < n, other.getLsbD i = field.getLsbD i) →
        signExtend? other n = some r) ∧
    ∀ width : Word, signExtend32? field width = signExtend? field width.toNat := by
  refine ⟨?_, ?_, signExtend32?_eq_signExtend? field⟩
  · unfold signExtend?
    split_ifs with hwidth
    · simp [hwidth]
    · simp [hwidth]
  · intro hpos hn
    have hsome : ∀ other, signExtend? other n = some (signExtend other n) :=
      fun other => if_pos ⟨hpos, hn⟩
    refine ⟨signExtend field n, hsome field, signExtend_eq_iff field hpos hn,
      signExtend_lt_zero_iff field hpos hn, ?_, ?_⟩
    · intro i hi
      have hmin : min i (n - 1) = i := by omega
      rw [getLsbD_ofInt_signExtend field hpos hn (by omega), hmin]
    · intro other hother
      rw [hsome other, signExtend_congr field hpos hn hother]

/-- At the two ends: a field of one bit is zero or minus one, and one of 32 bits is the whole word.
Beyond them a width is refused. -/
theorem signExtend_is_twos_complement_ends :
    signExtend? 0x00000003 1 = some (-1) ∧ signExtend? 0x80000000 32 = some (-2 ^ 31) ∧
      signExtend? 0x80000000 33 = none ∧ signExtend? 0x80000000 0 = none := by
  obtain ⟨-, hone, -⟩ := signExtend_is_twos_complement 0x00000003 1
  obtain ⟨r, hr, hvalue, -⟩ := hone (by decide) (by decide)
  obtain ⟨-, hall, -⟩ := signExtend_is_twos_complement 0x80000000 32
  obtain ⟨s, hs, hvalue', -⟩ := hall (by decide) (by decide)
  have hminus : -1 = r := (hvalue (-1)).mpr ⟨by decide, by decide, by decide⟩
  have hleast : -2 ^ 31 = s := (hvalue' (-2 ^ 31)).mpr ⟨by decide, by decide, by decide⟩
  refine ⟨hminus ▸ hr, hleast ▸ hs, ?_, ?_⟩
  · exact (signExtend_is_twos_complement 0x80000000 33).1.mpr (by decide)
  · exact (signExtend_is_twos_complement 0x80000000 0).1.mpr (by decide)

end RiscvListing
