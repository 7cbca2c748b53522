import RiscvListing.Instruction.Resolve
import RiscvListing.Register

/-!
# Instruction records

The text of an instruction: the mnemonic, a tab, and the operands in the template of their shape.
A record is that text with a line end.

* `Operands.pieces`, `Instruction.pieces`: the text as the list of pieces it is written in.
* `Instruction.text`, `Instruction.record`: the text in one, without and with the line end.
* `disassemble`: the record of a word, with numeric register names.
* `CharSink`, `CharSink.write`: a sink that keeps a fixed number of characters.
* `Instruction.write`: the record written piece by piece into such a sink.
-/

namespace RiscvListing

/-- The pieces after the mnemonic. -/
def Operands.pieces (names : RegisterNames) : Operands → List String
  | .registers rd rs1 rs2 =>
    ["\t", Register.text rd names, ", ", Register.text rs1 names, ", ", Register.text rs2 names]
  | .immediate rd rs1 imm =>
    ["\t", Register.text rd names, ", ", Register.text rs1 names, ", ", Numeral.decimal imm]
  | .shift rd rs1 shamt =>
    ["\t", Register.text rd names, ", ", Register.text rs1 names, ", ", Numeral.natural shamt]
  | .load rd rs1 offset =>
    ["\t", Register.text rd names, ", ", Numeral.decimal offset, "(", Register.text rs1 names, ")"]
  | .store rs1 rs2 offset =>
    ["\t", Register.text rs2 names, ", ", Numeral.decimal offset, "(", Register.text rs1 names, ")"]
  | .branch rs1 rs2 offset =>
    ["\t", Register.text rs1 names, ", ", Register.text rs2 names, ", ", Numeral.decimal offset]
  | .upper rd imm => ["\t", Register.text rd names, ", ", Numeral.natural imm]
  | .jump rd offset => ["\t", Register.text rd names, ", ", Numeral.decimal offset]
  | .bare => []

namespace Instruction

/-- The pieces of an instruction's text, in the order they are written. -/
def pieces (i : Instruction) (names : RegisterNames) : List String :=
  i.mnemonic.name :: i.operands.pieces names

/-- The text of an instruction. -/
def text (i : Instruction) (names : RegisterNames) : String := String.join (i.pieces names)

/-- The line that a listing shows for an instruction. -/
def record (i : Instruction) (names : RegisterNames) : String := i.text names ++ "\n"

end Instruction

/-- The record of a word, with numeric register names. -/
def disassemble (w : Word) : Except Rejection String :=
  (decode w).map fun i => i.record .numeric

/-! ## Writing into a bounded sink -/

/-- A sink for characters with room for only so many. -/
structure CharSink where
  /-- The characters it still has room for. -/
  room : Nat
  /-- The characters it has kept. -/
  kept : List Char := []
  deriving DecidableEq, Repr

/-- Writes a piece: the characters that fit are kept, and the answer is whether all did. -/
def CharSink.write (sink : CharSink) (piece : String) : CharSink × Bool :=
  let chars := piece.toList
  ({ room := sink.room - chars.length, kept := sink.kept ++ chars.take sink.room },
    chars.length ≤ sink.room)

/-- Writes pieces in order and stops at the first that does not fit. -/
def CharSink.writePieces (sink : CharSink) : List String → CharSink × Bool
  | [] => (sink, true)
  | piece :: rest =>
    match sink.write piece with
    | (sink, true) => sink.writePieces rest
    | (sink, false) => (sink, false)

/-- Writes the record of an instruction piece by piece. -/
def Instruction.write (i : Instruction) (names : RegisterNames) (sink : CharSink) :
    CharSink × Bool :=
  sink.writePieces (i.pieces names ++ ["\n"])

end RiscvListing
