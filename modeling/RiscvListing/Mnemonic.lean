import RiscvListing.Layout

/-!
# Mnemonics

The 32 instructions of RV32IM that have a name here, and the selector values that stand for them.

* `Mnemonic`, `Mnemonic.all`: the mnemonics in the order of the reference table.
* `Mnemonic.name`, `Mnemonic.ofName?`: their spelling, and back.
* `Shape`, `Mnemonic.shape`: the kind of operands that a mnemonic takes.
* `Extension`, `Mnemonic.extension`: the part of the instruction set it comes from.
* `Selectors`, `Mnemonic.selectors`, `Selectors.baseWord`: its fixed bits.

The table of selectors is written independently of the decoder's dispatch, so that the two can be
compared.
-/

namespace RiscvListing

/-- The mnemonics. -/
inductive Mnemonic where
  | add | sub | sll | slt | xor | srl | sra | or | and
  | mul | mulh | div | rem
  | addi | slli | slti | xori | srli | srai | ori | andi
  | lb | lh | lw
  | sb | sh | sw
  | beq | bne
  | lui
  | jal
  | ecall
  deriving DecidableEq, Repr

/-- The kinds of operand lists; each has a text template of its own. -/
inductive Shape where
  /-- Written `name rd, rs1, rs2`. -/
  | registers
  /-- Written `name rd, rs1, imm`. -/
  | immediate
  /-- Written `name rd, rs1, shamt`. -/
  | shift
  /-- Written `name rd, offset(rs1)`. -/
  | load
  /-- Written `name rs2, offset(rs1)`. -/
  | store
  /-- Written `name rs1, rs2, offset`. -/
  | branch
  /-- Written `name rd, imm`. -/
  | upper
  /-- Written `name rd, offset`. -/
  | jump
  /-- Written `name`. -/
  | bare
  deriving DecidableEq, Repr

/-- Parts of the instruction set. -/
inductive Extension where
  /-- The base integer instructions. -/
  | base
  /-- Multiplication and division. -/
  | multiply
  deriving DecidableEq, Repr

/-- The selector values that identify a mnemonic. For a shift by an immediate, `funct7` stands for
the top seven bits of the immediate. -/
structure Selectors where
  /-- The major opcode. -/
  opcode : Nat
  /-- The second selector, if the mnemonic fixes it. -/
  funct3 : Option Nat
  /-- The third selector, if the mnemonic fixes it. -/
  funct7 : Option Nat
  deriving DecidableEq, Repr

/-- The word that carries the selectors and no other bit. Bits pushed beyond the word are lost. -/
def Selectors.baseWord (s : Selectors) : Word :=
  BitVec.ofNat 32 s.opcode ||| BitVec.ofNat 32 (s.funct3.getD 0) <<< 12 |||
    BitVec.ofNat 32 (s.funct7.getD 0) <<< 25

namespace Mnemonic

/-- Every mnemonic, in table order. -/
def all : List Mnemonic :=
  [add, sub, sll, slt, xor, srl, sra, or, and, mul, mulh, div, rem,
    addi, slli, slti, xori, srli, srai, ori, andi,
    lb, lh, lw, sb, sh, sw, beq, bne, lui, jal, ecall]

/-- No mnemonic is missing from the table. -/
theorem mem_all (m : Mnemonic) : m ∈ all := by cases m <;> decide

/-- The spelling of a mnemonic. -/
def name : Mnemonic → String
  | add => "add" | sub => "sub" | sll => "sll" | slt => "slt" | xor => "xor"
  | srl => "srl" | sra => "sra" | or => "or" | and => "and"
  | mul => "mul" | mulh => "mulh" | div => "div" | rem => "rem"
  | addi => "addi" | slli => "slli" | slti => "slti" | xori => "xori"
  | srli => "srli" | srai => "srai" | ori => "ori" | andi => "andi"
  | lb => "lb" | lh => "lh" | lw => "lw"
  | sb => "sb" | sh => "sh" | sw => "sw"
  | beq => "beq" | bne => "bne"
  | lui => "lui" | jal => "jal" | ecall => "ecall"

/-- The mnemonic with a given spelling. -/
def ofName? (text : String) : Option Mnemonic := all.find? fun m => m.name == text

/-- The operands that a mnemonic takes. -/
def shape : Mnemonic → Shape
  | add | sub | sll | slt | xor | srl | sra | or | and | mul | mulh | div | rem => .registers
  | addi | slti | xori | ori | andi => .immediate
  | slli | srli | srai => .shift
  | lb | lh | lw => .load
  | sb | sh | sw => .store
  | beq | bne => .branch
  | lui => .upper
  | jal => .jump
  | ecall => .bare

/-- The part of the instruction set that a mnemonic comes from. -/
def extension : Mnemonic → Extension
  | mul | mulh | div | rem => .multiply
  | _ => .base

/-- The fixed bits of a mnemonic. -/
def selectors : Mnemonic → Selectors
  | add => ⟨Opcode.op, some 0x0, some 0x00⟩
  | mul => ⟨Opcode.op, some 0x0, some 0x01⟩
  | sub => ⟨Opcode.op, some 0x0, some 0x20⟩
  | sll => ⟨Opcode.op, some 0x1, some 0x00⟩
  | mulh => ⟨Opcode.op, some 0x1, some 0x01⟩
  | slt => ⟨Opcode.op, some 0x2, some 0x00⟩
  | xor => ⟨Opcode.op, some 0x4, some 0x00⟩
  | div => ⟨Opcode.op, some 0x4, some 0x01⟩
  | srl => ⟨Opcode.op, some 0x5, some 0x00⟩
  | sra => ⟨Opcode.op, some 0x5, some 0x20⟩
  | or => ⟨Opcode.op, some 0x6, some 0x00⟩
  | rem => ⟨Opcode.op, some 0x6, some 0x01⟩
  | and => ⟨Opcode.op, some 0x7, some 0x00⟩
  | addi => ⟨Opcode.opImm, some 0x0, none⟩
  | slli => ⟨Opcode.opImm, some 0x1, some 0x00⟩
  | slti => ⟨Opcode.opImm, some 0x2, none⟩
  | xori => ⟨Opcode.opImm, some 0x4, none⟩
  | srli => ⟨Opcode.opImm, some 0x5, some 0x00⟩
  | srai => ⟨Opcode.opImm, some 0x5, some 0x20⟩
  | ori => ⟨Opcode.opImm, some 0x6, none⟩
  | andi => ⟨Opcode.opImm, some 0x7, none⟩
  | lb => ⟨Opcode.load, some 0x0, none⟩
  | lh => ⟨Opcode.load, some 0x1, none⟩
  | lw => ⟨Opcode.load, some 0x2, none⟩
  | sb => ⟨Opcode.store, some 0x0, none⟩
  | sh => ⟨Opcode.store, some 0x1, none⟩
  | sw => ⟨Opcode.store, some 0x2, none⟩
  | beq => ⟨Opcode.branch, some 0x0, none⟩
  | bne => ⟨Opcode.branch, some 0x1, none⟩
  | lui => ⟨Opcode.lui, none, none⟩
  | jal => ⟨Opcode.jal, none, none⟩
  | ecall => ⟨Opcode.system, none, none⟩

end Mnemonic

end RiscvListing
