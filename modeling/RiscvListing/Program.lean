import RiscvListing.Failure
import RiscvListing.HexWord
import RiscvListing.Text.Blank
import RiscvListing.Text.Lines
import RiscvListing.Text.Utf8

/-!
# Program input

The words to be listed come from raw bytes or from hexadecimal text.

* `InputFormat`: the two encodings.
* `Program.readBinary`: little-endian words, four bytes each.
* `Program.lineCode`, `Program.lineWord`, `Program.readHex`: one word per line of text, where `#`
  starts a comment and lines without a word are passed over.
* `Program.read`: the words of a buffer in a given encoding.
* `Program.littleEndian`: the bytes of a list of words.
-/

namespace RiscvListing

/-- The encoding of the input. -/
inductive InputFormat where
  /-- Little-endian 32-bit words. -/
  | binary
  /-- One hexadecimal word per line. -/
  | hex
  deriving DecidableEq, Repr

namespace Program

/-! ## Raw bytes -/

/-- The bytes of a list of words. -/
def littleEndian (words : List Word) : List UInt8 := words.flatMap Word.bytes

/-- The words of consecutive groups of four bytes, put after `found`; bytes that do not fill a
group are not looked at. -/
def takeWords (found : Array Word) : List UInt8 → Array Word
  | a :: b :: c :: d :: rest => takeWords (found.push (Word.ofBytes a b c d)) rest
  | _ => found

/-- Reads whole words; input with bytes left over is refused. -/
def readBinary (bytes : List UInt8) : Except Failure (List Word) :=
  if bytes.length % 4 = 0 then .ok (takeWords #[] bytes).toList
  else .error (.truncatedInput bytes.length)

/-! ## Hexadecimal text -/

/-- The part of a line that may hold a word: what stands before the first `#`, without the blanks
around it. -/
def lineCode (line : List Char) : List Char := trim (line.takeWhile (· ≠ '#'))

/-- The word of a line with a given number, if the line has one. -/
def lineWord (number : Nat) (line : List Char) : Except Failure (Option Word) :=
  let code := lineCode line
  if code.isEmpty then .ok none
  else match HexWord.parse? code with
    | some w => .ok (some w)
    | none => .error (.invalidHexWord number (String.ofList code))

/-- Reads one word per line that has one; the first line that spells no word is reported. -/
def readHex (bytes : List UInt8) : Except Failure (List Word) := do
  let found ← ((lines (Utf8.decode bytes)).zipIdx 1).mapM fun (line, number) =>
    lineWord number line
  return found.reduceOption

/-- The words of a buffer. -/
def read (bytes : List UInt8) : InputFormat → Except Failure (List Word)
  | .binary => readBinary bytes
  | .hex => readHex bytes

end Program

end RiscvListing
