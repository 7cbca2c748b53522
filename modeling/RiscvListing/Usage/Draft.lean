import RiscvListing.Usage.Grammar

/-!
# Drafts

What one level of a command line has said so far. Values are checked late: an option's value, or
the arguments beside the options, wait until something else is understood or the line ends.

* `Usage.Draft`: the switches, settings and arguments that have been accepted.
* `Usage.Draft.turnOn`, `Usage.Draft.assign`: accepting a switch and a setting.
* `Usage.Pending`, `Usage.Draft.settle`: the values that wait, and accepting them.
-/

namespace RiscvListing.Usage

/-- What a level has said. -/
structure Draft where
  /-- The switches given. -/
  switches : List Switch := []
  /-- The path for the listing. -/
  output : Option String := none
  /-- The encoding of the input. -/
  format : Option InputFormat := none
  /-- What happens to invalid words. -/
  onInvalid : Option InvalidPolicy := none
  /-- The address of the first word. -/
  base : Option Word := none
  /-- The number of decoders. -/
  jobs : Option Nat := none
  /-- The path of the input. -/
  file : Option String := none
  /-- The words to decode. -/
  words : List Word := []
  deriving DecidableEq, Repr

/-! ## Values -/

/-- A path: any text but the empty one. -/
def parsePath (text : String) : Except Issue String :=
  if text = "" then .error .invalidValue else .ok text

/-- An input format by name. -/
def parseFormat : String → Except Issue InputFormat
  | "binary" => .ok .binary
  | "hex" => .ok .hex
  | _ => .error .invalidValue

/-- A policy by name. -/
def parsePolicy : String → Except Issue InvalidPolicy
  | "abort" => .ok .abort
  | "skip" => .ok .skip
  | "mark" => .ok .mark
  | _ => .error .invalidValue

/-- A word in hexadecimal. -/
def parseWord (text : String) : Except Issue Word :=
  match HexWord.parse? text.toList with
  | some w => .ok w
  | none => .error .malformedValue

/-- The number that decimal digits spell. -/
def naturalValue (digits : List Char) : Nat :=
  digits.foldl (fun n c => 10 * n + (c.toNat - '0'.toNat)) 0

/-- A count: decimal digits, after a plus sign if there is one, of a number of 64 bits. -/
def parseCount (text : String) : Except Issue Nat :=
  let digits := match text.toList with
    | '+' :: rest => rest
    | other => other
  let value := naturalValue digits
  if !digits.isEmpty && digits.all Char.isDigit && value ≤ 0xFFFFFFFFFFFFFFFF then .ok value
  else .error .malformedValue

/-! ## Accepting -/

namespace Draft

/-- Whether a switch was given. -/
def isOn (d : Draft) (switch : Switch) : Bool := d.switches.contains switch

/-- Accepts a switch, once. -/
def turnOn (d : Draft) (switch : Switch) : Except Issue Draft :=
  if d.isOn switch then .error .conflict
  else .ok { d with switches := switch :: d.switches }

/-- Whether a setting was given. -/
def has (d : Draft) : Setting → Bool
  | .output => d.output.isSome
  | .format => d.format.isSome
  | .onInvalid => d.onInvalid.isSome
  | .base => d.base.isSome
  | .jobs => d.jobs.isSome

/-- Accepts a setting, once, if its value is right. -/
def assign (d : Draft) (setting : Setting) (text : String) : Except Issue Draft :=
  if d.has setting then .error .conflict
  else match setting with
    | .output => (parsePath text).map fun v => { d with output := some v }
    | .format => (parseFormat text).map fun v => { d with format := some v }
    | .onInvalid => (parsePolicy text).map fun v => { d with onInvalid := some v }
    | .base => (parseWord text).map fun v => { d with base := some v }
    | .jobs => (parseCount text).map fun v => { d with jobs := some v }

end Draft

/-- Values that wait to be checked. -/
inductive Pending where
  /-- No value waits. -/
  | nothing
  /-- A setting has no value yet. -/
  | awaiting (setting : Setting)
  /-- The value of a setting. -/
  | value (setting : Setting) (text : String)
  /-- The input path. -/
  | file (text : String)
  /-- Words to decode, in order. -/
  | words (texts : List String)
  deriving DecidableEq, Repr

/-- Accepts the values that wait. -/
def Draft.settle (d : Draft) : Pending → Except Issue Draft
  | .nothing => .ok d
  | .awaiting _ => .error .invalidValue
  | .value setting text => d.assign setting text
  | .file text => (parsePath text).map fun path => { d with file := some path }
  | .words texts => (texts.mapM parseWord).map fun ws => { d with words := d.words ++ ws }

end RiscvListing.Usage
