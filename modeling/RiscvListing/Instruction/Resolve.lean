import RiscvListing.Immediate
import RiscvListing.Instruction
import RiscvListing.Rejection

/-!
# Resolving a word

The decoder dispatches on the opcode, then on the second selector, then on the third one or on the
shift type, and reports the first of them that matches nothing.

* `Mnemonic.ofArithmetic`, `Mnemonic.ofLoad`, `Mnemonic.ofStore`, `Mnemonic.ofBranch`,
  `resolveImmediate`: the dispatch below one opcode.
* `resolveFields`: the dispatch on opcode and fields.
* `Parsed.resolve`: an instruction or a rejection for a word already cut into fields.
* `decode`: the same for a word.

The opcode is dispatched on together with the layout of the fields: fields of another layout than
the opcode's match nothing, apart from environment calls, which take any fields.
-/

namespace RiscvListing

/-! ## Dispatch below one opcode -/

/-- The register-register instructions. -/
def Mnemonic.ofArithmetic (funct3 funct7 : Nat) : Except Unmatched Mnemonic :=
  match funct3 with
  | 0x0 =>
    match funct7 with
    | 0x00 => .ok .add
    | 0x01 => .ok .mul
    | 0x20 => .ok .sub
    | _ => .error (.funct7 funct7)
  | 0x1 =>
    match funct7 with
    | 0x00 => .ok .sll
    | 0x01 => .ok .mulh
    | _ => .error (.funct7 funct7)
  | 0x2 =>
    match funct7 with
    | 0x00 => .ok .slt
    | _ => .error (.funct7 funct7)
  | 0x4 =>
    match funct7 with
    | 0x00 => .ok .xor
    | 0x01 => .ok .div
    | _ => .error (.funct7 funct7)
  | 0x5 =>
    match funct7 with
    | 0x00 => .ok .srl
    | 0x20 => .ok .sra
    | _ => .error (.funct7 funct7)
  | 0x6 =>
    match funct7 with
    | 0x00 => .ok .or
    | 0x01 => .ok .rem
    | _ => .error (.funct7 funct7)
  | 0x7 =>
    match funct7 with
    | 0x00 => .ok .and
    | _ => .error (.funct7 funct7)
  | _ => .error (.funct3 funct3)

/-- The register-immediate instructions. Immediate bits 11 to 5 tell the shifts apart, and bits 4
to 0 are their amount; the others take the whole immediate as a signed number. -/
def resolveImmediate (funct3 rd rs1 imm : Nat) : Except Unmatched (Mnemonic × Operands) :=
  let shiftType := bitGroup imm 5 7
  let shift (m : Mnemonic) := (m, Operands.shift rd rs1 (bitGroup imm 0 5))
  let signed (m : Mnemonic) := (m, Operands.immediate rd rs1 (immediateValue imm))
  match funct3 with
  | 0x0 => .ok (signed .addi)
  | 0x1 =>
    match shiftType with
    | 0x00 => .ok (shift .slli)
    | _ => .error (.shiftType shiftType)
  | 0x2 => .ok (signed .slti)
  | 0x4 => .ok (signed .xori)
  | 0x5 =>
    match shiftType with
    | 0x00 => .ok (shift .srli)
    | 0x20 => .ok (shift .srai)
    | _ => .error (.shiftType shiftType)
  | 0x6 => .ok (signed .ori)
  | 0x7 => .ok (signed .andi)
  | _ => .error (.funct3 funct3)

/-- The loads. -/
def Mnemonic.ofLoad : Nat → Except Unmatched Mnemonic
  | 0x0 => .ok .lb
  | 0x1 => .ok .lh
  | 0x2 => .ok .lw
  | funct3 => .error (.funct3 funct3)

/-- The stores. -/
def Mnemonic.ofStore : Nat → Except Unmatched Mnemonic
  | 0x0 => .ok .sb
  | 0x1 => .ok .sh
  | 0x2 => .ok .sw
  | funct3 => .error (.funct3 funct3)

/-- The branches. -/
def Mnemonic.ofBranch : Nat → Except Unmatched Mnemonic
  | 0x0 => .ok .beq
  | 0x1 => .ok .bne
  | funct3 => .error (.funct3 funct3)

/-! ## Dispatch on the opcode -/

/-- The mnemonic and operands that an opcode and fields stand for, or the first selector without a
match. -/
def resolveFields : Nat → Fields → Except Unmatched (Mnemonic × Operands)
  | Opcode.op, .r funct3 funct7 rd rs1 rs2 =>
    (Mnemonic.ofArithmetic funct3 funct7).map fun m => (m, .registers rd rs1 rs2)
  | Opcode.opImm, .i funct3 rd rs1 imm => resolveImmediate funct3 rd rs1 imm
  | Opcode.load, .i funct3 rd rs1 imm =>
    (Mnemonic.ofLoad funct3).map fun m => (m, .load rd rs1 (immediateValue imm))
  | Opcode.store, .s funct3 rs1 rs2 imm5 imm7 =>
    (Mnemonic.ofStore funct3).map fun m => (m, .store rs1 rs2 (storeOffset imm5 imm7))
  | Opcode.branch, .b funct3 rs1 rs2 imm5 imm7 =>
    (Mnemonic.ofBranch funct3).map fun m => (m, .branch rs1 rs2 (branchOffset imm5 imm7))
  | Opcode.lui, .u rd imm => .ok (.lui, .upper rd imm)
  | Opcode.jal, .j rd imm => .ok (.jal, .jump rd (jumpOffset imm))
  | Opcode.system, _ => .ok (.ecall, .bare)
  | _, _ => .error .opcode

/-- The instruction that a cut word stands for. -/
def Parsed.resolve (p : Parsed) : Except Rejection Instruction :=
  match resolveFields p.opcode p.fields with
  | .ok (mnemonic, operands) => .ok ⟨p.raw, mnemonic, operands⟩
  | .error unmatched => .error ⟨p.raw, p.opcode, unmatched⟩

/-- The instruction that a word stands for. -/
def decode (w : Word) : Except Rejection Instruction := (Parsed.ofWord w).resolve

end RiscvListing
