import RiscvListing.Proofs.Immediate

/-!
# Offsets as sums of bits

The instruction set gives every bit of an offset its weight, the highest one a negative weight.

* `bitValue n k`: bit `k` of a number, as a number.
* `sum_bitValue`: a group of bits is the sum of its bits, each at its weight.
* `storeOffset_eq_groups`, `branchOffset_eq_groups`, `jumpOffset_eq_groups`: an offset is the sum of
  its groups, less the group of the sign.
* `storeGroups`, `branchGroups`, `jumpGroup`: the groups of an offset. Groups that fit and offsets
  in range determine each other (`bijOn_storeOffset`, `bijOn_branchOffset`, `bijOn_jumpOffset`).
* **Offsets are weighted sums of bits** (`offsets_are_bit_sums`).
-/

namespace RiscvListing

open Finset

/-! ## Groups as sums of bits -/

/-- Bit `k` of a number, as a number. -/
def bitValue (n k : Nat) : Int := (n.testBit k).toNat

/-- A bit is a group of one. -/
theorem bitValue_eq_bitGroup (n k : Nat) : bitValue n k = bitGroup n k 1 := by
  rw [bitValue, Nat.toNat_testBit, bitGroup_eq, Nat.pow_one]

/-- A group with one more bit at its upper end. -/
theorem bitGroup_succ (n lo width : Nat) :
    bitGroup n lo (width + 1) = bitGroup n lo width + bitGroup n (width + lo) 1 * 2 ^ width := by
  rw [bitGroup_eq, bitGroup_eq, bitGroup_eq, Nat.pow_succ, Nat.mod_mul, Nat.div_div_eq_div_mul,
    ← Nat.pow_add, Nat.add_comm lo, Nat.pow_one, Nat.mul_comm (2 ^ width)]

/-- **A group is the sum of its bits**, each at its weight. -/
theorem sum_bitValue (n lo width weight : Nat) :
    ∑ k ∈ range width, bitValue n (k + lo) * 2 ^ (k + weight) =
      bitGroup n lo width * 2 ^ weight := by
  induction width with
  | zero => simp [bitGroup, Nat.mod_one]
  | succ width ih =>
      rw [sum_range_succ, ih, bitValue_eq_bitGroup, bitGroup_succ n lo width, pow_add]
      push_cast
      ring

/-! ## Offsets as sums of groups -/

theorem storeOffset_eq_groups (imm5 imm7 : Nat) :
    storeOffset imm5 imm7 =
      bitGroup imm5 0 5 + bitGroup imm7 0 6 * 2 ^ 5 - bitGroup imm7 6 1 * 2 ^ 11 := by
  obtain ⟨hlo, hhi, k, hk⟩ := storeOffset_spec imm5 imm7
  simp only [bitGroup_eq] at *
  omega

theorem branchOffset_eq_groups (imm5 imm7 : Nat) :
    branchOffset imm5 imm7 =
      bitGroup imm5 1 4 * 2 ^ 1 + bitGroup imm5 0 1 * 2 ^ 11 + bitGroup imm7 0 6 * 2 ^ 5 -
        bitGroup imm7 6 1 * 2 ^ 12 := by
  obtain ⟨hlo, hhi, k, hk⟩ := branchOffset_spec imm5 imm7
  simp only [bitGroup_eq] at *
  omega

theorem jumpOffset_eq_groups (imm : Nat) :
    jumpOffset imm =
      bitGroup imm 0 8 * 2 ^ 12 + bitGroup imm 8 1 * 2 ^ 11 + bitGroup imm 9 10 * 2 ^ 1 -
        bitGroup imm 19 1 * 2 ^ 20 := by
  obtain ⟨hlo, hhi, k, hk⟩ := jumpOffset_spec imm
  simp only [bitGroup_eq] at *
  omega

/-! ## The groups of an offset -/

/-- The two groups of a store offset. -/
def storeGroups (offset : Int) : Nat × Nat := (immediateBits offset 0 5, immediateBits offset 5 7)

/-- The two groups of a branch offset: bits 4 to 1 above bit 11, and bit 12 above bits 10 to 5. -/
def branchGroups (offset : Int) : Nat × Nat :=
  (immediateBits offset 1 4 * 2 ^ 1 + immediateBits offset 11 1,
    immediateBits offset 12 1 * 2 ^ 6 + immediateBits offset 5 6)

/-- The group of a jump offset: bit 20, then bits 10 to 1, then bit 11, then bits 19 to 12. -/
def jumpGroup (offset : Int) : Nat :=
  immediateBits offset 20 1 * 2 ^ 19 + immediateBits offset 1 10 * 2 ^ 9 +
    immediateBits offset 11 1 * 2 ^ 8 + immediateBits offset 12 8

/-- The groups of a branch offset fit, and each bit of the offset is found at its place. -/
theorem branchGroups_spec (offset : Int) :
    (branchGroups offset).1 < 2 ^ 5 ∧ (branchGroups offset).2 < 2 ^ 7 ∧
      bitGroup (branchGroups offset).2 6 1 = immediateBits offset 12 1 ∧
      bitGroup (branchGroups offset).2 0 6 = immediateBits offset 5 6 ∧
      bitGroup (branchGroups offset).1 1 4 = immediateBits offset 1 4 ∧
      bitGroup (branchGroups offset).1 0 1 = immediateBits offset 11 1 := by
  have h12 := immediateBits_lt offset 12 1
  have h5 := immediateBits_lt offset 5 6
  have h1 := immediateBits_lt offset 1 4
  have h11 := immediateBits_lt offset 11 1
  simp only [bitGroup_eq, branchGroups]
  omega

/-- The group of a jump offset fits, and each bit of the offset is found at its place. -/
theorem jumpGroup_spec (offset : Int) :
    jumpGroup offset < 2 ^ 20 ∧
      bitGroup (jumpGroup offset) 19 1 = immediateBits offset 20 1 ∧
      bitGroup (jumpGroup offset) 9 10 = immediateBits offset 1 10 ∧
      bitGroup (jumpGroup offset) 8 1 = immediateBits offset 11 1 ∧
      bitGroup (jumpGroup offset) 0 8 = immediateBits offset 12 8 := by
  have h20 := immediateBits_lt offset 20 1
  have h1 := immediateBits_lt offset 1 10
  have h11 := immediateBits_lt offset 11 1
  have h12 := immediateBits_lt offset 12 8
  simp only [bitGroup_eq, jumpGroup]
  omega

/-- Two groups that fit and a store offset in range determine each other. -/
theorem bijOn_storeOffset :
    Set.BijOn (fun p : Nat × Nat => storeOffset p.1 p.2) {p | p.1 < 2 ^ 5 ∧ p.2 < 2 ^ 7}
      {offset | -2048 ≤ offset ∧ offset ≤ 2047} := by
  refine Set.InvOn.bijOn (⟨?_, ?_⟩ : Set.InvOn storeGroups _ _ _) ?_ ?_
  · rintro ⟨imm5, imm7⟩ ⟨h5, h7⟩
    obtain ⟨hlow, hhigh⟩ := immediateBits_storeOffset h5 h7
    exact Prod.ext hlow hhigh
  · intro offset hrange
    exact storeOffset_immediateBits hrange
  · rintro ⟨imm5, imm7⟩ -
    obtain ⟨hlo, hhi, -⟩ := storeOffset_spec imm5 imm7
    have hlast : storeOffset imm5 imm7 ≤ 2047 := by omega
    exact ⟨hlo, hlast⟩
  · intro offset _
    exact ⟨immediateBits_lt offset 0 5, immediateBits_lt offset 5 7⟩

/-- Two groups that fit and an even branch offset in range determine each other. -/
theorem bijOn_branchOffset :
    Set.BijOn (fun p : Nat × Nat => branchOffset p.1 p.2) {p | p.1 < 2 ^ 5 ∧ p.2 < 2 ^ 7}
      {offset | Even offset ∧ -4096 ≤ offset ∧ offset ≤ 4094} := by
  refine Set.InvOn.bijOn (⟨?_, ?_⟩ : Set.InvOn branchGroups _ _ _) ?_ ?_
  · rintro ⟨imm5, imm7⟩ ⟨h5, h7⟩
    obtain ⟨h12, hmiddle, hlow, h11⟩ := immediateBits_branchOffset imm5 imm7
    dsimp only at h5 h7
    simp only [branchGroups, h12, hmiddle, hlow, h11, bitGroup_eq, Prod.mk.injEq]
    omega
  · rintro offset ⟨heven, hrange⟩
    obtain ⟨-, -, h12, h5, h1, h11⟩ := branchGroups_spec offset
    exact branchOffset_of_immediateBits (Int.even_iff.mp heven) hrange h12 h5 h1 h11
  · rintro ⟨imm5, imm7⟩ -
    obtain ⟨hlo, hhi, -⟩ := branchOffset_spec imm5 imm7
    have heven := branchOffset_even imm5 imm7
    have hlast : branchOffset imm5 imm7 ≤ 4094 := by omega
    exact ⟨Int.even_iff.mpr heven, hlo, hlast⟩
  · intro offset _
    obtain ⟨h5, h7, -⟩ := branchGroups_spec offset
    exact ⟨h5, h7⟩

/-- A group that fits and an even jump offset in range determine each other. -/
theorem bijOn_jumpOffset :
    Set.BijOn jumpOffset {imm | imm < 2 ^ 20}
      {offset | Even offset ∧ -2 ^ 20 ≤ offset ∧ offset ≤ 2 ^ 20 - 2} := by
  refine Set.InvOn.bijOn (⟨?_, ?_⟩ : Set.InvOn jumpGroup _ _ _) ?_ ?_
  · intro imm himm
    have hfit : imm < 2 ^ 20 := himm
    obtain ⟨h20, hlow, h11, hmiddle⟩ := immediateBits_jumpOffset imm
    rw [jumpGroup, h20, hlow, h11, hmiddle]
    simp only [bitGroup_eq]
    omega
  · rintro offset ⟨heven, hrange⟩
    obtain ⟨-, h20, h1, h11, h12⟩ := jumpGroup_spec offset
    exact jumpOffset_of_immediateBits (Int.even_iff.mp heven) hrange h20 h1 h11 h12
  · intro imm _
    obtain ⟨hlo, hhi, -⟩ := jumpOffset_spec imm
    have heven := jumpOffset_even imm
    have hlast : jumpOffset imm ≤ 2 ^ 20 - 2 := by omega
    exact ⟨Int.even_iff.mpr heven, hlo, hlast⟩
  · intro offset _
    exact (jumpGroup_spec offset).1

/-! ## Offsets as sums of bits -/

/-- **Offsets are weighted sums of bits.** Each bit of the groups has its own weight in the offset,
the highest one a negative weight, and the bits above the groups have none. Groups that fit and
offsets in range, even ones for branches and jumps, therefore determine each other. -/
theorem offsets_are_bit_sums (imm5 imm7 imm20 : Nat) :
    storeOffset imm5 imm7 =
      ∑ k ∈ range 5, bitValue imm5 k * 2 ^ k + ∑ k ∈ range 6, bitValue imm7 k * 2 ^ (k + 5) -
        bitValue imm7 6 * 2 ^ 11 ∧
    branchOffset imm5 imm7 =
      ∑ k ∈ Icc 1 4, bitValue imm5 k * 2 ^ k + bitValue imm5 0 * 2 ^ 11 +
        ∑ k ∈ range 6, bitValue imm7 k * 2 ^ (k + 5) - bitValue imm7 6 * 2 ^ 12 ∧
    jumpOffset imm20 =
      ∑ k ∈ range 8, bitValue imm20 k * 2 ^ (k + 12) + bitValue imm20 8 * 2 ^ 11 +
        ∑ k ∈ range 10, bitValue imm20 (k + 9) * 2 ^ (k + 1) - bitValue imm20 19 * 2 ^ 20 ∧
    storeOffset (imm5 % 2 ^ 5) (imm7 % 2 ^ 7) = storeOffset imm5 imm7 ∧
    branchOffset (imm5 % 2 ^ 5) (imm7 % 2 ^ 7) = branchOffset imm5 imm7 ∧
    jumpOffset (imm20 % 2 ^ 20) = jumpOffset imm20 ∧
    Set.BijOn (fun p : Nat × Nat => storeOffset p.1 p.2) {p | p.1 < 2 ^ 5 ∧ p.2 < 2 ^ 7}
      {offset | -2048 ≤ offset ∧ offset ≤ 2047} ∧
    Set.BijOn (fun p : Nat × Nat => branchOffset p.1 p.2) {p | p.1 < 2 ^ 5 ∧ p.2 < 2 ^ 7}
      {offset | Even offset ∧ -4096 ≤ offset ∧ offset ≤ 4094} ∧
    Set.BijOn jumpOffset {imm | imm < 2 ^ 20}
      {offset | Even offset ∧ -2 ^ 20 ≤ offset ∧ offset ≤ 2 ^ 20 - 2} := by
  refine ⟨?_, ?_, ?_, storeOffset_mod imm5 imm7, branchOffset_mod imm5 imm7, jumpOffset_mod imm20,
    bijOn_storeOffset, bijOn_branchOffset, bijOn_jumpOffset⟩
  · have hlow := sum_bitValue imm5 0 5 0
    have hhigh := sum_bitValue imm7 0 6 5
    simp only [Nat.add_zero, pow_zero, mul_one] at hlow hhigh
    rw [storeOffset_eq_groups, hlow, hhigh, bitValue_eq_bitGroup]
  · have hlow := sum_bitValue imm5 1 4 1
    have hhigh := sum_bitValue imm7 0 6 5
    have hshift : ∑ k ∈ Icc 1 4, bitValue imm5 k * 2 ^ k =
        ∑ k ∈ range 4, bitValue imm5 (k + 1) * 2 ^ (k + 1) :=
      sum_Ico_eq_sum_range (fun k => bitValue imm5 k * 2 ^ k) 1 5
    simp only [Nat.add_zero] at hhigh
    rw [branchOffset_eq_groups, hshift, hlow, hhigh, bitValue_eq_bitGroup, bitValue_eq_bitGroup]
  · have hhigh := sum_bitValue imm20 0 8 12
    have hlow := sum_bitValue imm20 9 10 1
    simp only [Nat.add_zero] at hhigh
    rw [jumpOffset_eq_groups, hhigh, hlow, bitValue_eq_bitGroup, bitValue_eq_bitGroup]

end RiscvListing
