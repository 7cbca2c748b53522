import RiscvListing.Instruction
import RiscvListing.Rejection

/-!
# Counts of a listing

* `Stats`: how many words were read, and how many of them are instructions.
* `Stats.ofResults`: the counts of a list of decoded words.
-/

namespace RiscvListing

/-- The counts of a listing. -/
structure Stats where
  /-- The words read. -/
  words : Nat
  /-- The words that stand for an instruction. -/
  decoded : Nat
  /-- The words that do not. -/
  invalid : Nat
  deriving DecidableEq, Repr

/-- The counts of a list of decoded words. -/
def Stats.ofResults (results : List (Except Rejection Instruction)) : Stats where
  words := results.length
  decoded := results.countP (·.isOk)
  invalid := results.countP (!·.isOk)

/-- Every word is counted once as an instruction or once as invalid. -/
theorem Stats.decoded_add_invalid (results : List (Except Rejection Instruction)) :
    (ofResults results).decoded + (ofResults results).invalid = (ofResults results).words := by
  simp only [ofResults]
  rw [List.length_eq_countP_add_countP (·.isOk)]
  simp

end RiscvListing
