import RiscvListing.Program
import RiscvListing.Register

/-!
# Listing configuration

* `InvalidPolicy`: what happens to words that stand for no instruction.
* `Config`: the choices for a listing, with their usual values.
* `Config.effectiveJobs`: how many decoders run, given the number of processors.
-/

namespace RiscvListing

/-- What to do with a word that stands for no instruction. -/
inductive InvalidPolicy where
  /-- Stop the listing there. -/
  | abort
  /-- Leave the word out. -/
  | skip
  /-- Write the message about it in place of the instruction. -/
  | mark
  deriving DecidableEq, Repr

/-- The choices for a listing. -/
structure Config where
  /-- The encoding of the input. -/
  inputFormat : InputFormat := .binary
  /-- What happens to invalid words. -/
  onInvalid : InvalidPolicy := .mark
  /-- The spelling of registers. -/
  registers : RegisterNames := .numeric
  /-- Whether each line starts with its address and word. -/
  addresses : Bool := false
  /-- The address of the first word. -/
  base : Word := 0
  /-- The number of decoders; zero stands for one per processor. -/
  jobs : Nat := 0
  deriving DecidableEq, Repr

/-- The number of decoders that run. -/
def Config.effectiveJobs (config : Config) (processors : Nat) : Nat :=
  if config.jobs = 0 then max processors 1 else config.jobs

end RiscvListing
