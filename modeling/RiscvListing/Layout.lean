import RiscvListing.Word

/-!
# Field layouts

A word is read under one of six layouts, chosen by its major opcode alone.

* `Opcode`: the major opcodes that have a name here.
* `Layout`, `Layout.ofOpcode`: the six layouts and the choice between them.
* `Fields`: the fields of a word under a layout, as raw bit groups.
* `Parsed`, `Parsed.ofWord`: a word together with its opcode and fields.

`Fields` may also be built by hand, with values wider than the bits of the layout; `Parsed.ofWord`
only produces values that fit.
-/

namespace RiscvListing

namespace Opcode

/-- Register-register arithmetic. -/
@[match_pattern] def op : Nat := 0x33

/-- Register-immediate arithmetic. -/
@[match_pattern] def opImm : Nat := 0x13

/-- Loads. -/
@[match_pattern] def load : Nat := 0x03

/-- Stores. -/
@[match_pattern] def store : Nat := 0x23

/-- Conditional branches. -/
@[match_pattern] def branch : Nat := 0x63

/-- Load upper immediate. -/
@[match_pattern] def lui : Nat := 0x37

/-- Jump and link. -/
@[match_pattern] def jal : Nat := 0x6F

/-- Environment calls. -/
@[match_pattern] def system : Nat := 0x73

/-- Add upper immediate to the program counter; it has a layout but no mnemonic here. -/
@[match_pattern] def auipc : Nat := 0x17

/-- Indirect jump and link; it has a layout but no mnemonic here. -/
@[match_pattern] def jalr : Nat := 0x67

/-- Memory ordering; it has a layout but no mnemonic here. -/
@[match_pattern] def miscMem : Nat := 0x0F

end Opcode

/-- The six ways of cutting a word into fields. -/
inductive Layout where
  /-- Two sources, a destination and three selectors. -/
  | r
  /-- One source, a destination and a 12-bit immediate. -/
  | i
  /-- Two sources and a 12-bit immediate in two groups. -/
  | s
  /-- As `s`, with the immediate bits of a branch. -/
  | b
  /-- A destination and a 20-bit immediate. -/
  | u
  /-- As `u`, with the immediate bits of a jump. -/
  | j
  deriving DecidableEq, Repr

/-- The layout that a major opcode implies. An opcode that is not in the standard map gets the
R layout, which names every bit of the word. -/
def Layout.ofOpcode : Nat → Layout
  | Opcode.opImm | Opcode.load | Opcode.system | Opcode.jalr | Opcode.miscMem => .i
  | Opcode.store => .s
  | Opcode.branch => .b
  | Opcode.lui | Opcode.auipc => .u
  | Opcode.jal => .j
  | _ => .r

/-- The fields of a word beside its opcode. Immediates are the raw bit groups of the word. -/
inductive Fields where
  /-- The R layout. -/
  | r (funct3 funct7 rd rs1 rs2 : Nat)
  /-- The I layout; `imm` holds immediate bits 11 to 0. -/
  | i (funct3 rd rs1 imm : Nat)
  /-- The S layout; `imm5` stands at word bits 11 to 7 and `imm7` at bits 31 to 25. -/
  | s (funct3 rs1 rs2 imm5 imm7 : Nat)
  /-- The B layout; the groups stand where those of the S layout stand. -/
  | b (funct3 rs1 rs2 imm5 imm7 : Nat)
  /-- The U layout; `imm` holds immediate bits 31 to 12. -/
  | u (rd imm : Nat)
  /-- The J layout; `imm` holds the 20 scattered bits of a jump. -/
  | j (rd imm : Nat)
  deriving DecidableEq, Repr

namespace Fields

/-- The layout that the fields belong to. -/
def layout : Fields → Layout
  | .r .. => .r
  | .i .. => .i
  | .s .. => .s
  | .b .. => .b
  | .u .. => .u
  | .j .. => .j

/-- The second selector, where the layout has one. -/
def funct3 : Fields → Option Nat
  | .r f .. | .i f .. | .s f .. | .b f .. => some f
  | .u .. | .j .. => none

/-- The fields of a word under a given layout. -/
def ofWord (w : Word) : Layout → Fields
  | .r => .r (Word.funct3 w) (Word.funct7 w) (Word.rd w) (Word.rs1 w) (Word.rs2 w)
  | .i => .i (Word.funct3 w) (Word.rd w) (Word.rs1 w) (Word.immediate w)
  | .s => .s (Word.funct3 w) (Word.rs1 w) (Word.rs2 w) (Word.rd w) (Word.funct7 w)
  | .b => .b (Word.funct3 w) (Word.rs1 w) (Word.rs2 w) (Word.rd w) (Word.funct7 w)
  | .u => .u (Word.rd w) (Word.upper w)
  | .j => .j (Word.rd w) (Word.upper w)

/-- Cutting a word under a layout gives fields of that layout. -/
@[simp] theorem layout_ofWord (w : Word) (l : Layout) : (ofWord w l).layout = l := by
  cases l <;> rfl

end Fields

/-- A word with its opcode and its fields. -/
structure Parsed where
  /-- The word itself. -/
  raw : Word
  /-- The major opcode that the decoder dispatches on. -/
  opcode : Nat
  /-- The fields beside the opcode. -/
  fields : Fields
  deriving DecidableEq, Repr

/-- Cuts a word under the layout that its opcode implies. Every word can be cut. -/
def Parsed.ofWord (w : Word) : Parsed where
  raw := w
  opcode := Word.opcode w
  fields := Fields.ofWord w (Layout.ofOpcode (Word.opcode w))

end RiscvListing
