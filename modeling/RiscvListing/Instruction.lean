import RiscvListing.Mnemonic

/-!
# Instructions

A resolved instruction is a mnemonic with the values of its operands.

* `Operands`: the operand values by shape; immediates and offsets are signed numbers.
* `Operands.shape`: the shape that they belong to.
* `Instruction`: the word, the mnemonic and the operands.

Instructions may also be built by hand: then the shape of the operands need not be the shape that
the mnemonic takes, and register indices may be above 31.
-/

namespace RiscvListing

/-- Operand values. Registers are given by index. -/
inductive Operands where
  /-- Two sources and a destination. -/
  | registers (rd rs1 rs2 : Nat)
  /-- A source, a destination and a signed immediate. -/
  | immediate (rd rs1 : Nat) (imm : Int)
  /-- A source, a destination and a shift amount. -/
  | shift (rd rs1 shamt : Nat)
  /-- A destination and a memory operand. -/
  | load (rd rs1 : Nat) (offset : Int)
  /-- A source `rs2` and a memory operand. -/
  | store (rs1 rs2 : Nat) (offset : Int)
  /-- Two sources and a branch offset. -/
  | branch (rs1 rs2 : Nat) (offset : Int)
  /-- A destination and the 20 bits of an upper immediate, not shifted. -/
  | upper (rd imm : Nat)
  /-- A destination and a jump offset. -/
  | jump (rd : Nat) (offset : Int)
  /-- No operands. -/
  | bare
  deriving DecidableEq, Repr

/-- The shape of a list of operands. -/
def Operands.shape : Operands → Shape
  | .registers .. => .registers
  | .immediate .. => .immediate
  | .shift .. => .shift
  | .load .. => .load
  | .store .. => .store
  | .branch .. => .branch
  | .upper .. => .upper
  | .jump .. => .jump
  | .bare => .bare

/-- A resolved instruction. -/
structure Instruction where
  /-- The word that it was read from. -/
  raw : Word
  /-- Its mnemonic. -/
  mnemonic : Mnemonic
  /-- Its operands. -/
  operands : Operands
  deriving DecidableEq, Repr

end RiscvListing
