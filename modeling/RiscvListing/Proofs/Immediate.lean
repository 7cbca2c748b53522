import RiscvListing.Immediate
import RiscvListing.Proofs.BitGroup

/-!
# Immediates in two's complement

* **Sign extension** (`signExtend_eq_bmod`): the low `n` bits of a word in two's complement are its
  balanced remainder modulo `2 ^ n`.
* **Offsets are weighted sums** (`immediateValue_spec`, `storeOffset_spec`, `branchOffset_spec`,
  `jumpOffset_spec`): each is in range and congruent to the sum of its groups. This is all that the
  later statements use.
* `immediateValue_mod`, `storeOffset_mod`, `branchOffset_mod`, `jumpOffset_mod`: bits above the groups
  have no influence.
* `immediateBits offset lo width`: the opposite direction, bits `lo`, …, `lo + width - 1` of a
  signed number in two's complement.
* **The two are inverse**, offset by offset: the bits of an offset that was put together from groups
  are the groups (`immediateBits_branchOffset` and its like), and the groups of a number that is in
  range and, for branches and jumps, even, are put together to that number
  (`branchOffset_of_immediateBits` and its like).
-/

namespace RiscvListing

/-! ## Sign extension -/

/-- **Two's complement is the balanced remainder**: `signExtend field n` is the number between
`-2 ^ (n - 1)` and `2 ^ (n - 1) - 1` that is congruent to `field` modulo `2 ^ n`. -/
theorem signExtend_eq_bmod (field : Word) {n : Nat} (hpos : 1 ≤ n) (hn : n ≤ 32) :
    signExtend field n = Int.bmod field.toNat (2 ^ n) := by
  have hpow : 2 ^ 32 = 2 ^ (32 - n) * 2 ^ n := by
    rw [← Nat.pow_add]
    congr 1
    omega
  have heven : 2 ∣ 2 ^ n := dvd_pow_self 2 (by omega)
  have hscale : ((field.toNat <<< (32 - n) : Nat) : Int) = (2 ^ (32 - n) : Nat) * field.toNat := by
    rw [Nat.shiftLeft_eq, Nat.mul_comm, Int.natCast_mul]
  unfold signExtend
  rw [BitVec.toInt_sshiftRight, BitVec.toInt_shiftLeft, Int.shiftRight_eq_div_pow, hscale, hpow,
    Int.mod_bmod_mul_of_pos _ _ (Nat.two_pow_pos _) heven]
  exact Int.mul_ediv_cancel_left _ (Int.natCast_ne_zero.2 (Nat.two_pow_pos _).ne')

/-- The same for a number that was put into a word first. -/
theorem signExtend_ofNat_eq_bmod (value : Nat) {n : Nat} (hpos : 1 ≤ n) (hn : n ≤ 32) :
    signExtend (BitVec.ofNat 32 value) n = Int.bmod value (2 ^ n) := by
  have hdvd : ((2 ^ n : Nat) : Int) ∣ ((2 ^ 32 : Nat) : Int) :=
    Int.natCast_dvd_natCast.2 (Nat.pow_dvd_pow 2 hn)
  rw [signExtend_eq_bmod _ hpos hn, BitVec.toNat_ofNat, Int.natCast_mod, Int.bmod_eq_emod,
    Int.bmod_eq_emod, Int.emod_emod_of_dvd _ hdvd]

/-- A sign extension is in range, and a multiple of the modulus away from the number. -/
theorem signExtend_ofNat_spec (value n half : Nat) (hn : n ≤ 32) (hhalf : 2 ^ n = 2 * half) :
    -half ≤ signExtend (BitVec.ofNat 32 value) n ∧ signExtend (BitVec.ofNat 32 value) n < half ∧
      ∃ k : Int, value = signExtend (BitVec.ofNat 32 value) n + (2 * half) * k := by
  have hpos : 1 ≤ n := by rcases n with _ | n <;> omega
  have hlo := Int.le_bmod (x := value) (m := 2 ^ n) (Nat.two_pow_pos n)
  have hhi := Int.bmod_lt (x := value) (m := 2 ^ n) (Nat.two_pow_pos n)
  have hdiv := Int.bmod_add_bdiv value (2 ^ n)
  rw [signExtend_ofNat_eq_bmod value hpos hn]
  rw [hhalf] at *
  exact ⟨by omega, by omega, _, by exact_mod_cast hdiv.symm⟩

/-! ## The offsets as weighted sums

Each offset is in range and congruent to the sum of its groups, each at its weight. -/

theorem immediateValue_spec (imm : Nat) :
    -2048 ≤ immediateValue imm ∧ immediateValue imm < 2048 ∧
      ∃ k : Int, imm = immediateValue imm + 4096 * k :=
  signExtend_ofNat_spec imm 12 2048 (by decide) rfl

theorem storeOffset_spec (imm5 imm7 : Nat) :
    -2048 ≤ storeOffset imm5 imm7 ∧ storeOffset imm5 imm7 < 2048 ∧
      ∃ k : Int, (imm7 * 32 + bitGroup imm5 0 5 : Nat) = storeOffset imm5 imm7 + 4096 * k := by
  unfold storeOffset
  simp only [Nat.shiftLeft_eq]
  exact signExtend_ofNat_spec _ 12 2048 (by decide) rfl

theorem branchOffset_spec (imm5 imm7 : Nat) :
    -4096 ≤ branchOffset imm5 imm7 ∧ branchOffset imm5 imm7 < 4096 ∧
      ∃ k : Int, (bitGroup imm7 6 1 * 4096 + bitGroup imm5 0 1 * 2048 + bitGroup imm7 0 6 * 32 +
        bitGroup imm5 1 4 * 2 : Nat) = branchOffset imm5 imm7 + 8192 * k := by
  unfold branchOffset
  simp only [Nat.shiftLeft_eq]
  exact signExtend_ofNat_spec _ 13 4096 (by decide) rfl

theorem jumpOffset_spec (imm : Nat) :
    -1048576 ≤ jumpOffset imm ∧ jumpOffset imm < 1048576 ∧
      ∃ k : Int, (bitGroup imm 19 1 * 1048576 + bitGroup imm 0 8 * 4096 +
        bitGroup imm 8 1 * 2048 + bitGroup imm 9 10 * 2 : Nat) = jumpOffset imm + 2097152 * k := by
  unfold jumpOffset
  simp only [Nat.shiftLeft_eq]
  exact signExtend_ofNat_spec _ 21 1048576 (by decide) rfl

/-- A branch goes to an even offset. -/
theorem branchOffset_even (imm5 imm7 : Nat) : branchOffset imm5 imm7 % 2 = 0 := by
  obtain ⟨-, -, k, hk⟩ := branchOffset_spec imm5 imm7
  omega

/-- A jump goes to an even offset. -/
theorem jumpOffset_even (imm : Nat) : jumpOffset imm % 2 = 0 := by
  obtain ⟨-, -, k, hk⟩ := jumpOffset_spec imm
  omega

/-! ### Bits above the groups have no influence -/

theorem immediateValue_mod (imm : Nat) : immediateValue (imm % 2 ^ 12) = immediateValue imm := by
  obtain ⟨hlo, hhi, k, hk⟩ := immediateValue_spec imm
  obtain ⟨hlo', hhi', k', hk'⟩ := immediateValue_spec (imm % 2 ^ 12)
  omega

theorem storeOffset_mod (imm5 imm7 : Nat) :
    storeOffset (imm5 % 2 ^ 5) (imm7 % 2 ^ 7) = storeOffset imm5 imm7 := by
  obtain ⟨hlo, hhi, k, hk⟩ := storeOffset_spec imm5 imm7
  obtain ⟨hlo', hhi', k', hk'⟩ := storeOffset_spec (imm5 % 2 ^ 5) (imm7 % 2 ^ 7)
  rw [bitGroup_mod_two_pow (by decide)] at hk'
  omega

theorem branchOffset_mod (imm5 imm7 : Nat) :
    branchOffset (imm5 % 2 ^ 5) (imm7 % 2 ^ 7) = branchOffset imm5 imm7 := by
  unfold branchOffset
  simp (disch := decide) only [bitGroup_mod_two_pow]

theorem jumpOffset_mod (imm : Nat) : jumpOffset (imm % 2 ^ 20) = jumpOffset imm := by
  unfold jumpOffset
  simp (disch := decide) only [bitGroup_mod_two_pow]

/-! ## The bits of a signed number -/

/-- The `width` bits from bit `lo` upwards of a number in two's complement. -/
def immediateBits (offset : Int) (lo width : Nat) : Nat :=
  ((BitVec.ofInt 32 offset).extractLsb' lo width).toNat

/-- Bits by division and remainder. -/
theorem immediateBits_eq (offset : Int) (lo width : Nat) :
    immediateBits offset lo width = (offset % 2 ^ 32).toNat / 2 ^ lo % 2 ^ width := by
  unfold immediateBits
  rw [BitVec.extractLsb'_toNat, BitVec.toNat_ofInt, Nat.shiftRight_eq_div_pow]
  rfl

theorem immediateBits_lt (offset : Int) (lo width : Nat) :
    immediateBits offset lo width < 2 ^ width :=
  ((BitVec.ofInt 32 offset).extractLsb' lo width).isLt

/-! ### From groups to a number and back -/

theorem immediateBits_immediateValue {imm : Nat} (h : imm < 2 ^ 12) :
    immediateBits (immediateValue imm) 0 12 = imm := by
  obtain ⟨-, -, k, hk⟩ := immediateValue_spec imm
  rw [immediateBits_eq]
  omega

theorem immediateBits_storeOffset {imm5 imm7 : Nat} (h5 : imm5 < 2 ^ 5) (h7 : imm7 < 2 ^ 7) :
    immediateBits (storeOffset imm5 imm7) 0 5 = imm5 ∧
      immediateBits (storeOffset imm5 imm7) 5 7 = imm7 := by
  obtain ⟨-, -, k, hk⟩ := storeOffset_spec imm5 imm7
  rw [bitGroup_eq] at hk
  simp only [immediateBits_eq]
  omega

/-- The four groups of a branch offset. -/
theorem immediateBits_branchOffset (imm5 imm7 : Nat) :
    immediateBits (branchOffset imm5 imm7) 12 1 = bitGroup imm7 6 1 ∧
      immediateBits (branchOffset imm5 imm7) 5 6 = bitGroup imm7 0 6 ∧
      immediateBits (branchOffset imm5 imm7) 1 4 = bitGroup imm5 1 4 ∧
      immediateBits (branchOffset imm5 imm7) 11 1 = bitGroup imm5 0 1 := by
  have h₁ := bitGroup_lt imm7 6 1
  have h₂ := bitGroup_lt imm7 0 6
  have h₃ := bitGroup_lt imm5 1 4
  have h₄ := bitGroup_lt imm5 0 1
  obtain ⟨-, -, k, hk⟩ := branchOffset_spec imm5 imm7
  simp only [immediateBits_eq]
  omega

/-- The four groups of a jump offset. -/
theorem immediateBits_jumpOffset (imm : Nat) :
    immediateBits (jumpOffset imm) 20 1 = bitGroup imm 19 1 ∧
      immediateBits (jumpOffset imm) 1 10 = bitGroup imm 9 10 ∧
      immediateBits (jumpOffset imm) 11 1 = bitGroup imm 8 1 ∧
      immediateBits (jumpOffset imm) 12 8 = bitGroup imm 0 8 := by
  have h₁ := bitGroup_lt imm 19 1
  have h₂ := bitGroup_lt imm 9 10
  have h₃ := bitGroup_lt imm 8 1
  have h₄ := bitGroup_lt imm 0 8
  obtain ⟨-, -, k, hk⟩ := jumpOffset_spec imm
  simp only [immediateBits_eq]
  omega

/-! ### From a number to groups and back -/

theorem immediateValue_immediateBits {offset : Int} (h : -2048 ≤ offset ∧ offset ≤ 2047) :
    immediateValue (immediateBits offset 0 12) = offset := by
  obtain ⟨hlo, hhi, k, hk⟩ := immediateValue_spec (immediateBits offset 0 12)
  rw [immediateBits_eq] at *
  omega

theorem storeOffset_immediateBits {offset : Int} (h : -2048 ≤ offset ∧ offset ≤ 2047) :
    storeOffset (immediateBits offset 0 5) (immediateBits offset 5 7) = offset := by
  obtain ⟨hlo, hhi, k, hk⟩ :=
    storeOffset_spec (immediateBits offset 0 5) (immediateBits offset 5 7)
  simp only [immediateBits_eq, bitGroup_eq] at *
  omega

/-- An even number in range is the branch offset of any two groups that hold its bits. -/
theorem branchOffset_of_immediateBits {offset : Int} {imm5 imm7 : Nat} (heven : offset % 2 = 0)
    (h : -4096 ≤ offset ∧ offset ≤ 4094) (h12 : bitGroup imm7 6 1 = immediateBits offset 12 1)
    (h5 : bitGroup imm7 0 6 = immediateBits offset 5 6)
    (h1 : bitGroup imm5 1 4 = immediateBits offset 1 4)
    (h11 : bitGroup imm5 0 1 = immediateBits offset 11 1) :
    branchOffset imm5 imm7 = offset := by
  obtain ⟨hlo, hhi, k, hk⟩ := branchOffset_spec imm5 imm7
  simp only [immediateBits_eq] at h12 h5 h1 h11
  omega

/-- An even number in range is the jump offset of any group that holds its bits. -/
theorem jumpOffset_of_immediateBits {offset : Int} {imm : Nat} (heven : offset % 2 = 0)
    (h : -1048576 ≤ offset ∧ offset ≤ 1048574)
    (h20 : bitGroup imm 19 1 = immediateBits offset 20 1)
    (h1 : bitGroup imm 9 10 = immediateBits offset 1 10)
    (h11 : bitGroup imm 8 1 = immediateBits offset 11 1)
    (h12 : bitGroup imm 0 8 = immediateBits offset 12 8) :
    jumpOffset imm = offset := by
  obtain ⟨hlo, hhi, k, hk⟩ := jumpOffset_spec imm
  simp only [immediateBits_eq] at h20 h1 h11 h12
  omega

end RiscvListing
