import RiscvListing.Layout
import RiscvListing.Proofs.BitGroup

/-!
# The layouts partition the word

A layout cuts a word into its opcode and fields, and nothing of the word is lost or read twice.

* `Fields.bits`, `assemble`: the fields, and the opcode with them, put at their places in a word.
* `Fields.InWidth`: every field fits into the bits that its layout has for it. `Layout.mask` has ones
  at these bits.
* **What was cut can be put back** (`Fields.bits_ofWord`, `assemble_ofWord`): under each layout the
  fields of a word are its bits from 7 upwards, whatever the opcode is.
* **What was put together is cut in the same way** (`opcode_assemble`, `Fields.ofWord_assemble`).
* **Parsing is a bijection** (`layout_partitions_word`): between words and opcodes with fields that
  are in width and of the opcode's layout.
-/

namespace RiscvListing

/-! ## Putting fields in place -/

/-- The fields at their places in the word, all other bits clear. -/
def Fields.bits : Fields → Word
  | .r funct3 funct7 rd rs1 rs2 =>
    place rd 7 ||| place funct3 12 ||| place rs1 15 ||| place rs2 20 ||| place funct7 25
  | .i funct3 rd rs1 imm => place rd 7 ||| place funct3 12 ||| place rs1 15 ||| place imm 20
  | .s funct3 rs1 rs2 imm5 imm7 | .b funct3 rs1 rs2 imm5 imm7 =>
    place imm5 7 ||| place funct3 12 ||| place rs1 15 ||| place rs2 20 ||| place imm7 25
  | .u rd imm | .j rd imm => place rd 7 ||| place imm 12

/-- The word of an opcode and fields. -/
def assemble (opcode : Nat) (fields : Fields) : Word := place opcode 0 ||| fields.bits

/-- Every field fits into its bits of the word. -/
def Fields.InWidth : Fields → Prop
  | .r funct3 funct7 rd rs1 rs2 =>
    funct3 < 2 ^ 3 ∧ funct7 < 2 ^ 7 ∧ rd < 2 ^ 5 ∧ rs1 < 2 ^ 5 ∧ rs2 < 2 ^ 5
  | .i funct3 rd rs1 imm => funct3 < 2 ^ 3 ∧ rd < 2 ^ 5 ∧ rs1 < 2 ^ 5 ∧ imm < 2 ^ 12
  | .s funct3 rs1 rs2 imm5 imm7 | .b funct3 rs1 rs2 imm5 imm7 =>
    funct3 < 2 ^ 3 ∧ rs1 < 2 ^ 5 ∧ rs2 < 2 ^ 5 ∧ imm5 < 2 ^ 5 ∧ imm7 < 2 ^ 7
  | .u rd imm | .j rd imm => rd < 2 ^ 5 ∧ imm < 2 ^ 20

/-! ## From a word to fields and back -/

/-- The fields of a word are in width under every layout. -/
theorem Fields.inWidth_ofWord (w : Word) (l : Layout) : (ofWord w l).InWidth := by
  have hrd := Word.rd_lt w
  have h3 := Word.funct3_lt w
  have hrs1 := Word.rs1_lt w
  have hrs2 := Word.rs2_lt w
  have h7 := Word.funct7_lt w
  cases l with
  | r => exact ⟨h3, h7, hrd, hrs1, hrs2⟩
  | i => exact ⟨h3, hrd, hrs1, Word.immediate_lt w⟩
  | s => exact ⟨h3, hrs1, hrs2, hrd, h7⟩
  | b => exact ⟨h3, hrs1, hrs2, hrd, h7⟩
  | u => exact ⟨hrd, Word.upper_lt w⟩
  | j => exact ⟨hrd, Word.upper_lt w⟩

/-- Ones at the bits that the fields of a layout take. -/
def Layout.mask : Layout → Word
  | .r | .s | .b => span 7 5 ||| span 12 3 ||| span 15 5 ||| span 20 5 ||| span 25 7
  | .i => span 7 5 ||| span 12 3 ||| span 15 5 ||| span 20 12
  | .u | .j => span 7 5 ||| span 12 20

/-- The fields of every layout fill the word above the opcode. -/
theorem Layout.mask_eq_span (l : Layout) : l.mask = span 7 25 := by cases l <;> decide

/-- **No layout leaves a bit out**: the fields of a word, put back, are the word without its
opcode. -/
theorem Fields.bits_ofWord (w : Word) (l : Layout) : (ofWord w l).bits = w &&& span 7 25 := by
  rw [← l.mask_eq_span]
  cases l <;> simp only [Layout.mask, BitVec.and_or_distrib_left, ← place_bitGroup] <;> rfl

/-- A word is its opcode and its fields, under every layout. -/
theorem assemble_ofWord (w : Word) (l : Layout) :
    assemble (Word.opcode w) (Fields.ofWord w l) = w := by
  have hopcode : place (Word.opcode w) 0 = w &&& span 0 7 := place_bitGroup w 0 7
  have hall : span 0 7 ||| span 7 25 = BitVec.allOnes 32 := by decide
  unfold assemble
  rw [hopcode, Fields.bits_ofWord, ← BitVec.and_or_distrib_left, hall, BitVec.and_allOnes]

/-! ## From fields to a word and back -/

/-- The fields leave the opcode clear, also if they are not in width. -/
theorem Fields.bitGroup_bits_opcode (fields : Fields) : bitGroup fields.bits.toNat 0 7 = 0 := by
  cases fields <;> simp (disch := omega) [bits]

/-- The opcode of an assembled word. -/
theorem opcode_assemble {opcode : Nat} (h : opcode < 2 ^ 7) (fields : Fields) :
    Word.opcode (assemble opcode fields) = opcode := by
  unfold Word.opcode assemble
  rw [BitVec.toNat_or, bitGroup_or, Fields.bitGroup_bits_opcode, Nat.or_zero]
  exact bitGroup_place_self h (by decide)

/-- The fields of an assembled word, under the layout that they have. -/
theorem Fields.ofWord_assemble {opcode : Nat} {fields : Fields} (hop : opcode < 2 ^ 7)
    (h : fields.InWidth) : ofWord (assemble opcode fields) fields.layout = fields := by
  -- each field is read at its own place; the opcode and the other fields leave it clear
  cases fields with
  | r funct3 funct7 rd rs1 rs2 =>
      obtain ⟨h3, h7, hrd, hrs1, hrs2⟩ := h
      simp (disch := omega) [layout, ofWord, assemble, bits, Word.funct3, Word.funct7, Word.rd,
        Word.rs1, Word.rs2]
  | i funct3 rd rs1 imm =>
      obtain ⟨h3, hrd, hrs1, himm⟩ := h
      simp (disch := omega) [layout, ofWord, assemble, bits, Word.funct3, Word.rd, Word.rs1,
        Word.immediate]
  | s funct3 rs1 rs2 imm5 imm7 | b funct3 rs1 rs2 imm5 imm7 =>
      obtain ⟨h3, hrs1, hrs2, h5, h7⟩ := h
      simp (disch := omega) [layout, ofWord, assemble, bits, Word.funct3, Word.funct7, Word.rd,
        Word.rs1, Word.rs2]
  | u rd imm | j rd imm =>
      obtain ⟨hrd, himm⟩ := h
      simp (disch := omega) [layout, ofWord, assemble, bits, Word.rd, Word.upper]

/-! ## Parsing -/

/-- **Parsing loses nothing, and each layout partitions the word.** A parsed word keeps the word,
has the layout of its opcode and fields that are in width, and is put together again from opcode and
fields; and an opcode with fields that are in width and of its layout is what their word parses
to. -/
theorem layout_partitions_word :
    (∀ w, let p := Parsed.ofWord w
      p.raw = w ∧ p.opcode = (w &&& 0x7F).toNat ∧
        p.fields.layout = Layout.ofOpcode (w &&& 0x7F).toNat ∧
        p.opcode < 2 ^ 7 ∧ p.fields.InWidth ∧ assemble p.opcode p.fields = w) ∧
    ∀ opcode fields, opcode < 2 ^ 7 → fields.InWidth → fields.layout = Layout.ofOpcode opcode →
      Parsed.ofWord (assemble opcode fields) = ⟨assemble opcode fields, opcode, fields⟩ := by
  constructor
  · intro w
    rw [Word.toNat_and_opcode]
    exact ⟨rfl, rfl, Fields.layout_ofWord w _, Word.opcode_lt w, Fields.inWidth_ofWord w _,
      assemble_ofWord w _⟩
  · intro opcode fields hop hwidth hlayout
    unfold Parsed.ofWord
    rw [opcode_assemble hop, ← hlayout, Fields.ofWord_assemble hop hwidth]

/-- A branch whose fields have all their bits set, from the opcode and fields to the word and
back. -/
theorem layout_partitions_branch :
    let fields : Fields := .b 7 31 31 31 127
    fields.InWidth ∧ fields.layout = Layout.ofOpcode Opcode.branch ∧
      assemble Opcode.branch fields = 0xFFFFFFE3 ∧
      Parsed.ofWord 0xFFFFFFE3 = ⟨0xFFFFFFE3, Opcode.branch, fields⟩ := by
  intro fields
  have hword : assemble Opcode.branch fields = 0xFFFFFFE3 := by decide
  have hwidth : fields.InWidth := by unfold Fields.InWidth; decide
  have hparsed := layout_partitions_word.2 Opcode.branch fields (by decide) hwidth rfl
  rw [hword] at hparsed
  exact ⟨hwidth, rfl, hword, hparsed⟩

end RiscvListing
