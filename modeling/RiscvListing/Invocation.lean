import RiscvListing.Config

/-!
# Invocations

What a command line asks for, once it has been understood.

* `DisasmOptions`: the file to disassemble, where to, and how.
* `Command`: the two commands.
* `Invocation`: a command with the switches that all commands share.
-/

namespace RiscvListing

/-- What to disassemble. -/
structure DisasmOptions where
  /-- The path of the input. -/
  input : String
  /-- The path of the file for the listing, if it is not to be printed. -/
  output : Option String
  /-- The choices for the listing. -/
  config : Config
  deriving DecidableEq, Repr

/-- The commands. -/
inductive Command where
  /-- Lists the words of a file. -/
  | disasm (options : DisasmOptions)
  /-- Lists words given as arguments. -/
  | decode (words : List Word) (registers : RegisterNames)
  deriving DecidableEq, Repr

/-- A command with the shared switches. -/
structure Invocation where
  /-- Whether more events are to be shown. -/
  verbose : Bool
  /-- Whether only errors are to be shown. -/
  silent : Bool
  /-- The command. -/
  command : Command
  deriving DecidableEq, Repr

end RiscvListing
