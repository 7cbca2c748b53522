import RiscvListing.Layout
import RiscvListing.Text.Numeral

/-!
# Rejected words

A word that stands for no instruction is rejected at the first selector that matches nothing.

* `Unmatched`: the selector that found no match.
* `Rejection`: the word, its opcode and that selector.
* `Rejection.message`: the one-line text about it.
* `Rejection.parsed`: the rejected word cut into fields again.
-/

namespace RiscvListing

/-- The dispatch level that found no matching case, with the value it looked for. -/
inductive Unmatched where
  /-- No instruction has the opcode. -/
  | opcode
  /-- No instruction of the opcode has this second selector. -/
  | funct3 (value : Nat)
  /-- No instruction of the opcode and second selector has this third selector. -/
  | funct7 (value : Nat)
  /-- No shift by an immediate has these top seven immediate bits. -/
  | shiftType (value : Nat)
  deriving DecidableEq, Repr

/-- The selector in words. -/
def Unmatched.text : Unmatched → String
  | .opcode => "opcode"
  | .funct3 v => "funct3 0x" ++ Numeral.hex v
  | .funct7 v => "funct7 0x" ++ Numeral.hexPadded 2 v
  | .shiftType v => "shift type 0x" ++ Numeral.hexPadded 2 v

/-- Why a word was rejected. -/
structure Rejection where
  /-- The rejected word. -/
  raw : Word
  /-- The opcode that was dispatched on. -/
  opcode : Nat
  /-- The first selector without a match. -/
  unmatched : Unmatched
  deriving DecidableEq, Repr

namespace Rejection

/-- The message about a rejected word, without a line end. -/
def message (r : Rejection) : String :=
  "Invalid Instruction: 0x" ++ Numeral.hexPadded 8 r.raw.toNat ++
    " (opcode 0x" ++ Numeral.hexPadded 2 r.opcode ++ ", unmatched " ++ r.unmatched.text ++ ")"

/-- The rejected word, cut into fields again. -/
def parsed (r : Rejection) : Parsed := Parsed.ofWord r.raw

end Rejection

end RiscvListing
