/-!
# Instruction words and their bit groups

An instruction is a 32-bit word. Every part of it that the decoder looks at is a run of
neighbouring bits, kept as the natural number that those bits spell.

* `Word`: the 32-bit word, also used for addresses.
* `bitGroup n lo width`: bits `lo`, …, `lo + width - 1` of `n`.
* `Word.opcode`, `Word.rd`, `Word.funct3`, `Word.rs1`, `Word.rs2`, `Word.funct7`,
  `Word.immediate`, `Word.upper`: the groups that the instruction layouts are made of.
* `Word.ofBytes`, `Word.bytes`: the four little-endian bytes of a word.
-/

namespace RiscvListing

/-- An instruction word or an address: 32 bits, bit 0 being the least significant one. -/
abbrev Word := BitVec 32

/-- The `width` bits of `n` from bit `lo` upwards, as a number. -/
def bitGroup (n lo width : Nat) : Nat := (n >>> lo) % (1 <<< width)

/-- A bit group is below the first number that needs more bits. -/
theorem bitGroup_lt (n lo width : Nat) : bitGroup n lo width < 1 <<< width :=
  Nat.mod_lt _ (by rw [Nat.one_shiftLeft]; exact Nat.two_pow_pos width)

namespace Word

/-! ## The groups of the instruction layouts -/

/-- Bits 6 to 0: the major opcode. -/
def opcode (w : Word) : Nat := bitGroup w.toNat 0 7

/-- Bits 11 to 7: the destination register, or the low immediate group of stores and branches. -/
def rd (w : Word) : Nat := bitGroup w.toNat 7 5

/-- Bits 14 to 12: the second selector. -/
def funct3 (w : Word) : Nat := bitGroup w.toNat 12 3

/-- Bits 19 to 15: the first source register. -/
def rs1 (w : Word) : Nat := bitGroup w.toNat 15 5

/-- Bits 24 to 20: the second source register. -/
def rs2 (w : Word) : Nat := bitGroup w.toNat 20 5

/-- Bits 31 to 25: the third selector, or the high immediate group of stores and branches. -/
def funct7 (w : Word) : Nat := bitGroup w.toNat 25 7

/-- Bits 31 to 20: the immediate of the I layout, not yet sign-extended. -/
def immediate (w : Word) : Nat := bitGroup w.toNat 20 12

/-- Bits 31 to 12: the immediate shared by the U and J layouts. -/
def upper (w : Word) : Nat := bitGroup w.toNat 12 20

/-! ## Bytes -/

/-- The word whose little-endian bytes are `a`, `b`, `c`, `d`. -/
def ofBytes (a b c d : UInt8) : Word :=
  BitVec.ofNat 32 (a.toNat + b.toNat <<< 8 + c.toNat <<< 16 + d.toNat <<< 24)

/-- The four bytes of a word, the least significant one first. -/
def bytes (w : Word) : List UInt8 :=
  [0, 8, 16, 24].map fun lo => UInt8.ofNat (bitGroup w.toNat lo 8)

end Word

end RiscvListing
