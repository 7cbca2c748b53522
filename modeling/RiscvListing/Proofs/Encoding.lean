import RiscvListing.Proofs.Dispatch
import RiscvListing.Proofs.Immediate

/-!
# Encoding instructions

A reference encoder, written from the places of the operands in the six layouts, and the proof that
it and the decoder are inverse to each other.

* `Operands.bits`, `encode`: the operands at their places, and the word they give with the base word
  of a mnemonic.
* `Operands.InRange`, `WellFormed`: the operands that have an encoding under a mnemonic.
* `Shape.mask`: ones at the bits that the operands of a shape take. With the fixed bits of a
  mnemonic of that shape they fill the word (`mask_or_shapeMask`), so a word is its fixed bits and
  its operands (`encode_ofWord`).
* **Decoder and encoder are inverse** (`decode_encode_inverse`): whatever decodes is well formed
  and, environment calls apart, encodes back to the word; whatever is well formed decodes to itself.

Environment calls are left out of the first half because the decoder takes every word of their
opcode for the same instruction.
-/

namespace RiscvListing

/-! ## The encoder -/

/-- The operands at their places in the word, all other bits clear. The bits of branch and jump
offsets are scattered. -/
def Operands.bits : Operands → Word
  | .registers rd rs1 rs2 => place rd 7 ||| place rs1 15 ||| place rs2 20
  | .immediate rd rs1 imm => place rd 7 ||| place rs1 15 ||| place (immediateBits imm 0 12) 20
  | .shift rd rs1 shamt => place rd 7 ||| place rs1 15 ||| place shamt 20
  | .load rd rs1 offset => place rd 7 ||| place rs1 15 ||| place (immediateBits offset 0 12) 20
  | .store rs1 rs2 offset =>
    place rs1 15 ||| place rs2 20 ||| place (immediateBits offset 0 5) 7 |||
      place (immediateBits offset 5 7) 25
  | .branch rs1 rs2 offset =>
    place rs1 15 ||| place rs2 20 ||| place (immediateBits offset 11 1) 7 |||
      place (immediateBits offset 1 4) 8 ||| place (immediateBits offset 5 6) 25 |||
      place (immediateBits offset 12 1) 31
  | .upper rd imm => place rd 7 ||| place imm 12
  | .jump rd offset =>
    place rd 7 ||| place (immediateBits offset 12 8) 12 ||| place (immediateBits offset 11 1) 20 |||
      place (immediateBits offset 1 10) 21 ||| place (immediateBits offset 20 1) 31
  | .bare => 0

/-- The word of a mnemonic with operands. -/
def encode (m : Mnemonic) (ops : Operands) : Word := m.selectors.baseWord ||| ops.bits

/-- Operands that the word has room for. -/
def Operands.InRange : Operands → Prop
  | .registers rd rs1 rs2 => rd < 32 ∧ rs1 < 32 ∧ rs2 < 32
  | .immediate rd rs1 imm => rd < 32 ∧ rs1 < 32 ∧ -2048 ≤ imm ∧ imm ≤ 2047
  | .shift rd rs1 shamt => rd < 32 ∧ rs1 < 32 ∧ shamt < 32
  | .load rd rs1 offset => rd < 32 ∧ rs1 < 32 ∧ -2048 ≤ offset ∧ offset ≤ 2047
  | .store rs1 rs2 offset => rs1 < 32 ∧ rs2 < 32 ∧ -2048 ≤ offset ∧ offset ≤ 2047
  | .branch rs1 rs2 offset =>
    rs1 < 32 ∧ rs2 < 32 ∧ offset % 2 = 0 ∧ -4096 ≤ offset ∧ offset ≤ 4094
  | .upper rd imm => rd < 32 ∧ imm < 2 ^ 20
  | .jump rd offset => rd < 32 ∧ offset % 2 = 0 ∧ -2 ^ 20 ≤ offset ∧ offset ≤ 2 ^ 20 - 2
  | .bare => True

/-- A mnemonic with operands of its shape that are in range. -/
def WellFormed (m : Mnemonic) (ops : Operands) : Prop := ops.shape = m.shape ∧ ops.InRange

/-! ## From a word to operands and back -/

@[simp] theorem Operands.shape_ofWord (w : Word) (s : Shape) : (Operands.ofWord w s).shape = s := by
  cases s <;> rfl

/-- The operands of a word are in range. -/
theorem Operands.inRange_ofWord (w : Word) (s : Shape) : (Operands.ofWord w s).InRange := by
  have hrd := Word.rd_lt w
  have hrs1 := Word.rs1_lt w
  have hrs2 := Word.rs2_lt w
  cases s with
  | registers => exact ⟨hrd, hrs1, hrs2⟩
  | immediate =>
      obtain ⟨hlo, hhi, -⟩ := immediateValue_spec (Word.immediate w)
      exact ⟨hrd, hrs1, hlo, by omega⟩
  | shift => exact ⟨hrd, hrs1, hrs2⟩
  | load =>
      obtain ⟨hlo, hhi, -⟩ := immediateValue_spec (Word.immediate w)
      exact ⟨hrd, hrs1, hlo, by omega⟩
  | store =>
      obtain ⟨hlo, hhi, -⟩ := storeOffset_spec (Word.rd w) (Word.funct7 w)
      exact ⟨hrs1, hrs2, hlo, by omega⟩
  | branch =>
      obtain ⟨hlo, hhi, -⟩ := branchOffset_spec (Word.rd w) (Word.funct7 w)
      have heven := branchOffset_even (Word.rd w) (Word.funct7 w)
      exact ⟨hrs1, hrs2, heven, hlo, by omega⟩
  | upper => exact ⟨hrd, Word.upper_lt w⟩
  | jump =>
      obtain ⟨hlo, hhi, -⟩ := jumpOffset_spec (Word.upper w)
      have heven := jumpOffset_even (Word.upper w)
      exact ⟨hrd, heven, hlo, by omega⟩
  | bare => trivial

/-- Ones at the bits that the operands of a shape take. -/
def Shape.mask : Shape → Word
  | .registers | .shift => span 7 5 ||| span 15 5 ||| span 20 5
  | .immediate | .load => span 7 5 ||| span 15 5 ||| span 20 12
  | .store => span 15 5 ||| span 20 5 ||| span 7 5 ||| span 25 7
  | .branch => span 15 5 ||| span 20 5 ||| span 7 1 ||| span 8 4 ||| span 25 6 ||| span 31 1
  | .upper => span 7 5 ||| span 12 20
  | .jump => span 7 5 ||| span 12 8 ||| span 20 1 ||| span 21 10 ||| span 31 1
  | .bare => 0

/-- The operands read from a word, put back, are the word cut down to the bits of the shape. -/
theorem Operands.bits_ofWord (w : Word) (s : Shape) :
    (Operands.ofWord w s).bits = w &&& s.mask := by
  cases s <;>
    simp only [Operands.ofWord, Operands.bits, Shape.mask, BitVec.and_or_distrib_left,
      ← place_bitGroup]
  case immediate | load =>
    rw [immediateBits_immediateValue (Word.immediate_lt w)]
    rfl
  case store =>
    obtain ⟨h5, h7⟩ := immediateBits_storeOffset (Word.rd_lt w) (Word.funct7_lt w)
    rw [h5, h7]
    rfl
  case branch =>
    obtain ⟨h12, h5, h1, h11⟩ := immediateBits_branchOffset (Word.rd w) (Word.funct7 w)
    rw [h12, h5, h1, h11]
    unfold Word.rd Word.funct7 Word.rs1 Word.rs2
    simp only [bitGroup_bitGroup, Nat.reduceAdd, Nat.reduceLeDiff]
  case jump =>
    obtain ⟨h20, h1, h11, h12⟩ := immediateBits_jumpOffset (Word.upper w)
    rw [h20, h1, h11, h12]
    unfold Word.rd Word.upper
    simp only [bitGroup_bitGroup, Nat.reduceAdd, Nat.reduceLeDiff]
  case bare => exact (BitVec.and_zero).symm
  all_goals rfl

/-- The fixed bits of a mnemonic and the bits of its operands fill the word. -/
theorem mask_or_shapeMask {m : Mnemonic} (h : m ≠ .ecall) :
    m.selectors.mask ||| m.shape.mask = BitVec.allOnes 32 := by
  cases m
  case ecall => exact absurd rfl h
  all_goals decide

/-- **A word is its fixed bits and its operands**: encoding the operands of a word that carries the
selectors of a mnemonic gives the word back. -/
theorem encode_ofWord {m : Mnemonic} {w : Word} (hw : m.selectors.Matches w) (hm : m ≠ .ecall) :
    encode m (Operands.ofWord w m.shape) = w := by
  have hbase := (Selectors.matches_iff_and_mask (Selectors.inRange_selectors m) w).1 hw
  unfold encode
  rw [Operands.bits_ofWord, ← hbase, ← BitVec.and_or_distrib_left, mask_or_shapeMask hm,
    BitVec.and_allOnes]

/-! ## From operands to a word and back -/

/-- Only register and shift mnemonics fix the third selector. -/
theorem Mnemonic.funct7_eq_none {m : Mnemonic} {s : Shape} (hs : s = m.shape)
    (h : s ≠ .registers ∧ s ≠ .shift) : m.selectors.funct7 = none := by
  subst hs
  cases m
  case slli | srli | srai => exact absurd rfl h.2
  case add | sub | sll | slt | xor | srl | sra | or | and | mul | mulh | div | rem =>
    exact absurd rfl h.1
  all_goals rfl

/-- The mnemonics of the U and J layouts do not fix the second selector. -/
theorem Mnemonic.funct3_eq_none {m : Mnemonic} {s : Shape} (hs : s = m.shape)
    (h : s = .upper ∨ s = .jump) : m.selectors.funct3 = none := by
  subst hs
  cases m
  case lui | jal => rfl
  all_goals rcases h with h | h <;> cases h

/-- The operands of an encoded word are the operands that were encoded. -/
theorem ofWord_encode {m : Mnemonic} {ops : Operands} (h : WellFormed m ops) :
    Operands.ofWord (encode m ops) m.shape = ops := by
  obtain ⟨hshape, hrange⟩ := h
  obtain ⟨hop, h3, h7⟩ := Selectors.inRange_selectors m
  unfold encode
  rw [Selectors.baseWord_eq_place, ← hshape]
  -- each operand is read at its own place; the other operands and the selectors leave it clear
  cases ops with
  | registers rd rs1 rs2 =>
      obtain ⟨hrd, hrs1, hrs2⟩ := hrange
      simp (disch := omega) [Operands.shape, Operands.ofWord, Operands.bits, Word.rd, Word.rs1,
        Word.rs2]
  | immediate rd rs1 imm =>
      obtain ⟨hrd, hrs1, himm⟩ := hrange
      have hnone := Mnemonic.funct7_eq_none (s := .immediate) hshape (by decide)
      have hlt := immediateBits_lt imm 0 12
      simp (disch := omega) [Operands.shape, Operands.ofWord, Operands.bits, Word.rd, Word.rs1,
        Word.immediate, hnone, immediateValue_immediateBits himm]
  | shift rd rs1 shamt =>
      obtain ⟨hrd, hrs1, hshamt⟩ := hrange
      simp (disch := omega) [Operands.shape, Operands.ofWord, Operands.bits, Word.rd, Word.rs1,
        Word.rs2]
  | load rd rs1 offset =>
      obtain ⟨hrd, hrs1, hoff⟩ := hrange
      have hnone := Mnemonic.funct7_eq_none (s := .load) hshape (by decide)
      have hlt := immediateBits_lt offset 0 12
      simp (disch := omega) [Operands.shape, Operands.ofWord, Operands.bits, Word.rd, Word.rs1,
        Word.immediate, hnone, immediateValue_immediateBits hoff]
  | store rs1 rs2 offset =>
      obtain ⟨hrs1, hrs2, hoff⟩ := hrange
      have hnone := Mnemonic.funct7_eq_none (s := .store) hshape (by decide)
      have h5 := immediateBits_lt offset 0 5
      have h7 := immediateBits_lt offset 5 7
      simp (disch := omega) [Operands.shape, Operands.ofWord, Operands.bits, Word.rd, Word.rs1,
        Word.rs2, Word.funct7, hnone, storeOffset_immediateBits hoff]
  | branch rs1 rs2 offset =>
      obtain ⟨hrs1, hrs2, heven, hoff⟩ := hrange
      have hnone := Mnemonic.funct7_eq_none (s := .branch) hshape (by decide)
      have h11 := immediateBits_lt offset 11 1
      have h1 := immediateBits_lt offset 1 4
      have h5 := immediateBits_lt offset 5 6
      have h12 := immediateBits_lt offset 12 1
      simp only [Operands.shape, Operands.ofWord, Operands.branch.injEq, Operands.bits, hnone]
      refine ⟨?_, ?_, branchOffset_of_immediateBits heven hoff ?_ ?_ ?_ ?_⟩
      · simp (disch := omega) [Word.rs1]
      · simp (disch := omega) [Word.rs2]
      all_goals
        simp only [Word.rd, Word.funct7]
        rw [bitGroup_bitGroup _ _ _ _ _ (by decide)]
        simp (disch := omega)
  | upper rd imm =>
      obtain ⟨hrd, himm⟩ := hrange
      have hnone := Mnemonic.funct7_eq_none (s := .upper) hshape (by decide)
      have hnone' := Mnemonic.funct3_eq_none (s := .upper) hshape (by decide)
      simp (disch := omega) [Operands.shape, Operands.ofWord, Operands.bits, Word.rd, Word.upper,
        hnone, hnone']
  | jump rd offset =>
      obtain ⟨hrd, heven, hoff⟩ := hrange
      have hnone := Mnemonic.funct7_eq_none (s := .jump) hshape (by decide)
      have hnone' := Mnemonic.funct3_eq_none (s := .jump) hshape (by decide)
      have h12 := immediateBits_lt offset 12 8
      have h11 := immediateBits_lt offset 11 1
      have h1 := immediateBits_lt offset 1 10
      have h20 := immediateBits_lt offset 20 1
      simp only [Operands.shape, Operands.ofWord, Operands.jump.injEq, Operands.bits, hnone, hnone']
      refine ⟨?_, jumpOffset_of_immediateBits heven hoff ?_ ?_ ?_ ?_⟩
      · simp (disch := omega) [Word.rd]
      all_goals
        unfold Word.upper
        rw [bitGroup_bitGroup _ _ _ _ _ (by decide)]
        simp (disch := omega)
  | bare => rfl

/-- The operands leave the opcode clear. -/
theorem Operands.bitGroup_bits_opcode (ops : Operands) : bitGroup ops.bits.toNat 0 7 = 0 := by
  cases ops <;> simp (disch := omega) [Operands.bits]

/-- The operands leave the second selector clear, where the mnemonic fixes it. -/
theorem Operands.bitGroup_bits_funct3 {m : Mnemonic} {ops : Operands} (h : WellFormed m ops)
    (hm : m.selectors.funct3.isSome) : bitGroup ops.bits.toNat 12 3 = 0 := by
  obtain ⟨hshape, hrange⟩ := h
  cases ops with
  | upper rd imm =>
      rw [Mnemonic.funct3_eq_none (s := .upper) hshape (by decide)] at hm
      cases hm
  | jump rd offset =>
      rw [Mnemonic.funct3_eq_none (s := .jump) hshape (by decide)] at hm
      cases hm
  | store rs1 rs2 offset =>
      have h5 := immediateBits_lt offset 0 5
      simp (disch := omega) [Operands.bits]
  | branch rs1 rs2 offset =>
      have h11 := immediateBits_lt offset 11 1
      have h1 := immediateBits_lt offset 1 4
      simp (disch := omega) [Operands.bits]
  | bare => exact bitGroup_zero 12 3
  | _ =>
      obtain ⟨hrd, -⟩ := hrange
      simp (disch := omega) [Operands.bits]

/-- The operands leave the third selector clear, where the mnemonic fixes it. -/
theorem Operands.bitGroup_bits_funct7 {m : Mnemonic} {ops : Operands} (h : WellFormed m ops)
    (hm : m.selectors.funct7.isSome) : bitGroup ops.bits.toNat 25 7 = 0 := by
  obtain ⟨hshape, hrange⟩ := h
  by_cases hs : ops.shape ≠ .registers ∧ ops.shape ≠ .shift
  · rw [Mnemonic.funct7_eq_none hshape hs] at hm
    cases hm
  · cases ops with
    | registers rd rs1 rs2 =>
        obtain ⟨hrd, hrs1, hrs2⟩ := hrange
        simp (disch := omega) [Operands.bits]
    | shift rd rs1 shamt =>
        obtain ⟨hrd, hrs1, hshamt⟩ := hrange
        simp (disch := omega) [Operands.bits]
    | _ => exact absurd ⟨nofun, nofun⟩ hs

/-- An encoded word carries the selectors of its mnemonic. -/
theorem matches_encode {m : Mnemonic} {ops : Operands} (h : WellFormed m ops) :
    m.selectors.Matches (encode m ops) := by
  obtain ⟨hop, h3, h7⟩ := matches_baseWord m
  unfold Word.opcode Word.funct3 Word.funct7 at *
  unfold encode Selectors.Matches Word.opcode Word.funct3 Word.funct7
  simp only [BitVec.toNat_or, bitGroup_or]
  refine ⟨?_, ?_, ?_⟩
  · rw [Operands.bitGroup_bits_opcode, Nat.or_zero, hop]
  · intro f hf
    rw [Operands.bitGroup_bits_funct3 h (Option.isSome_of_mem hf), Nat.or_zero, h3 f hf]
  · intro f hf
    rw [Operands.bitGroup_bits_funct7 h (Option.isSome_of_mem hf), Nat.or_zero, h7 f hf]

/-! ## Decoder and encoder -/

/-- Whatever a word decodes to is well formed. -/
theorem wellFormed_of_decode {w : Word} {i : Instruction} (h : decode w = .ok i) :
    WellFormed i.mnemonic i.operands := by
  obtain ⟨-, -, hops⟩ := decode_eq_ok_iff.1 h
  rw [hops]
  exact ⟨Operands.shape_ofWord w _, Operands.inRange_ofWord w _⟩

/-- Whatever a word decodes to, environment calls apart, encodes back to the word. -/
theorem encode_of_decode {w : Word} {i : Instruction} (h : decode w = .ok i)
    (hsys : Word.opcode w ≠ Opcode.system) : encode i.mnemonic i.operands = w := by
  obtain ⟨hmatch, -, hops⟩ := decode_eq_ok_iff.1 h
  rw [hops]
  apply encode_ofWord hmatch
  intro hm
  rw [hm] at hmatch
  exact hsys hmatch.1

/-- **Decoder and encoder are inverse to each other.** An instruction that a word decodes to keeps
the word, is well formed and, unless the word has the opcode of environment calls, encodes back to
the word; and every well-formed mnemonic with operands decodes, from its encoding, to itself. -/
theorem decode_encode_inverse :
    (∀ w i, decode w = .ok i →
      i.raw = w ∧ WellFormed i.mnemonic i.operands ∧
        (Word.opcode w ≠ Opcode.system → encode i.mnemonic i.operands = w)) ∧
    ∀ m ops, WellFormed m ops → decode (encode m ops) = .ok ⟨encode m ops, m, ops⟩ := by
  constructor
  · intro w i hi
    exact ⟨(decode_eq_ok_iff.1 hi).2.1, wellFormed_of_decode hi, encode_of_decode hi⟩
  · intro m ops h
    exact decode_eq_ok_iff.2 ⟨matches_encode h, rfl, (ofWord_encode h).symm⟩

/-- The two halves at a jump to the address two bytes back, whose offset bits are all set. -/
theorem decode_encode_inverse_jal :
    WellFormed .jal (.jump 1 (-2)) ∧ encode .jal (.jump 1 (-2)) = 0xFFFFF0EF ∧
      decode (encode .jal (.jump 1 (-2))) =
        .ok ⟨encode .jal (.jump 1 (-2)), .jal, .jump 1 (-2)⟩ := by
  have hdec : decode 0xFFFFF0EF = .ok ⟨0xFFFFF0EF, .jal, .jump 1 (-2)⟩ := by decide
  obtain ⟨-, hwf, henc⟩ := decode_encode_inverse.1 _ _ hdec
  exact ⟨hwf, henc (by decide), decode_encode_inverse.2 _ _ hwf⟩

end RiscvListing
