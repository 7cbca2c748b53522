import RiscvListing.Failure
import RiscvListing.Program
import RiscvListing.Stats

/-!
# Events

What the program reports about its own work, apart from the listing.

* `Level`: how important an event is.
* `Event`: the events.
* `Event.level`, `Event.message`, `Event.fields`: its importance, its text and its values.
-/

namespace RiscvListing

/-- The importance of an event. -/
inductive Level where
  /-- Something failed. -/
  | error
  /-- Something is odd but work goes on. -/
  | warn
  /-- A step that users care about. -/
  | info
  /-- A step inside the program. -/
  | debug
  /-- The smallest steps. -/
  | trace
  deriving DecidableEq, Repr

/-- The rank of a level, zero being the most important. -/
def Level.rank : Level → Nat
  | .error => 0
  | .warn => 1
  | .info => 2
  | .debug => 3
  | .trace => 4

/-- The name of a level. -/
def Level.name : Level → String
  | .error => "ERROR"
  | .warn => "WARN"
  | .info => "INFO"
  | .debug => "DEBUG"
  | .trace => "TRACE"

/-- An event. -/
inductive Event where
  /-- A file is about to be disassembled. -/
  | disassembling (input : String) (format : InputFormat)
  /-- A file has been read. -/
  | readInput (path : String) (bytes : Nat) (format : InputFormat)
  /-- Words are decoded by several decoders. -/
  | decodingInParallel (jobs words : Nat)
  /-- A word was rejected while decoding. -/
  | unsupportedEncoding (rejection : Rejection)
  /-- An invalid word is left out of the listing. -/
  | skippingInvalid (address : Word) (rejection : Rejection)
  /-- An invalid word is marked in the listing. -/
  | markingInvalid (address : Word) (rejection : Rejection)
  /-- A listing has been written. -/
  | listingComplete (stats : Stats)
  /-- A file has been disassembled. -/
  | done (stats : Stats)
  /-- A file could not be disassembled. -/
  | disassemblyFailed (failure : Failure)
  /-- Words given on the command line include invalid ones. -/
  | someInvalid (count : Nat)
  /-- Words given on the command line could not be listed. -/
  | decodeFailed (failure : Failure)
  deriving DecidableEq, Repr

/-- The value of an event's field. -/
inductive FieldValue where
  /-- A number. -/
  | number (n : Nat)
  /-- Text that is shown as it is. -/
  | plain (text : String)
  /-- Text that is shown between quotes. -/
  | quoted (text : String)
  deriving DecidableEq, Repr

/-- The name of an input format. -/
def InputFormat.name : InputFormat → String
  | .binary => "Binary"
  | .hex => "Hex"

/-- The counts as fields. -/
def Stats.fields (stats : Stats) : List (String × FieldValue) :=
  [("words", .number stats.words), ("decoded", .number stats.decoded),
    ("invalid", .number stats.invalid)]

namespace Event

/-- The importance of an event. -/
def level : Event → Level
  | disassembling .. | done .. => .info
  | readInput .. | decodingInParallel .. | listingComplete .. => .debug
  | unsupportedEncoding .. => .trace
  | skippingInvalid .. | markingInvalid .. | someInvalid .. => .warn
  | disassemblyFailed .. | decodeFailed .. => .error

/-- The text of an event. -/
def message : Event → String
  | disassembling .. => "disassembling"
  | readInput .. => "read input"
  | decodingInParallel .. => "decoding in parallel"
  | unsupportedEncoding .. => "unsupported encoding"
  | skippingInvalid .. => "skipping invalid instruction"
  | markingInvalid .. => "invalid instruction"
  | listingComplete .. => "listing complete"
  | done .. => "done"
  | disassemblyFailed .. => "disassembly failed"
  | someInvalid .. => "some words did not decode"
  | decodeFailed .. => "decode failed"

/-- The values that an event carries, in the order they are shown. -/
def fields : Event → List (String × FieldValue)
  | disassembling input format => [("input", .plain input), ("format", .plain format.name)]
  | readInput path bytes format =>
    [("path", .plain path), ("bytes", .number bytes), ("format", .plain format.name)]
  | decodingInParallel jobs words => [("jobs", .number jobs), ("words", .number words)]
  | unsupportedEncoding r =>
    [("raw", .quoted ("0x" ++ Numeral.hexPadded 8 r.raw.toNat)),
      ("selector", .plain r.unmatched.text)]
  | skippingInvalid address r | markingInvalid address r =>
    [("addr", .quoted ("0x" ++ Numeral.hex address.toNat)), ("error", .plain r.message)]
  | listingComplete stats | done stats => stats.fields
  | disassemblyFailed failure | decodeFailed failure => [("error", .plain failure.message)]
  | someInvalid count => [("invalid", .number count)]

end Event

end RiscvListing
