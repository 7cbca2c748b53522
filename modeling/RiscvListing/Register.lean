import RiscvListing.Text.Numeral

/-!
# Register names

Registers are written by number (`x0`, …, `x31`) or by the name that the calling convention gives
them.

* `RegisterNames`: the choice between the two spellings.
* `Register.abiName`: the calling convention's name.
* `Register.text`: a register in the chosen spelling.

An index above 31 names no register; it keeps its number in the numeric spelling and is written
`??` in the other.
-/

namespace RiscvListing

/-- How register operands are spelled. -/
inductive RegisterNames where
  /-- By number. -/
  | numeric
  /-- By the name of the calling convention. -/
  | abi
  deriving DecidableEq, Repr

namespace Register

/-- The names of the calling convention, in order of the register number. -/
def abiNames : List String :=
  ["zero", "ra", "sp", "gp", "tp", "t0", "t1", "t2", "s0", "s1",
    "a0", "a1", "a2", "a3", "a4", "a5", "a6", "a7",
    "s2", "s3", "s4", "s5", "s6", "s7", "s8", "s9", "s10", "s11",
    "t3", "t4", "t5", "t6"]

/-- The calling convention's name of a register. -/
def abiName (index : Nat) : String := abiNames[index]?.getD "??"

/-- A register in the chosen spelling. -/
def text (index : Nat) : RegisterNames → String
  | .numeric => "x" ++ Numeral.natural index
  | .abi => abiName index

end Register

end RiscvListing
