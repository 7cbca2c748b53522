/-!
# UTF-8

Text is written as UTF-8 and read from bytes that may be anything.

* `Utf8.encode`: the bytes of a text.
* `Utf8.Sequence`: a multi-byte character that is not complete yet.
* `Utf8.Decoder`, `Utf8.Decoder.feed`, `Utf8.Decoder.finish`: a decoder that takes one byte at a
  time.
* `Utf8.decode`: the text of a list of bytes.

Reading never fails. Where the bytes are not UTF-8, each longest run that could still have become a
character, or else the single byte that cannot start one, reads as the replacement character.
-/

namespace RiscvListing.Utf8

/-- The bytes of a text. -/
def encode (text : List Char) : List UInt8 := text.flatMap String.utf8EncodeChar

/-- The character that stands for bytes that are no text. -/
def replacement : Char := '\ufffd'

/-- A character of which some bytes have been read. -/
structure Sequence where
  /-- How many more bytes belong to it after the next one. -/
  later : Nat
  /-- The least value that the next byte may have. -/
  low : UInt8
  /-- The greatest value that the next byte may have. -/
  high : UInt8
  /-- The code point bits read so far. -/
  bits : Nat
  /-- No later byte of a character is an ASCII byte. -/
  not_ascii : 0x80 ≤ low := by decide
  deriving DecidableEq, Repr

/-- The sequence that a byte starts. The first byte narrows the second one where a wider choice
would spell a shorter character again, a surrogate or a value above the code points. -/
def Sequence.start? (b : UInt8) : Option Sequence :=
  if 0xC2 ≤ b ∧ b ≤ 0xDF then
    some { later := 0, low := 0x80, high := 0xBF, bits := b.toNat - 0xC0 }
  else if b = 0xE0 then
    some { later := 1, low := 0xA0, high := 0xBF, bits := 0 }
  else if b = 0xED then
    some { later := 1, low := 0x80, high := 0x9F, bits := 0xD }
  else if 0xE1 ≤ b ∧ b ≤ 0xEF then
    some { later := 1, low := 0x80, high := 0xBF, bits := b.toNat - 0xE0 }
  else if b = 0xF0 then
    some { later := 2, low := 0x90, high := 0xBF, bits := 0 }
  else if 0xF1 ≤ b ∧ b ≤ 0xF3 then
    some { later := 2, low := 0x80, high := 0xBF, bits := b.toNat - 0xF0 }
  else if b = 0xF4 then
    some { later := 2, low := 0x80, high := 0x8F, bits := 4 }
  else none

/-- The text read so far and the character that is not complete. -/
structure Decoder where
  /-- The complete characters. -/
  text : Array Char := #[]
  /-- The character whose bytes are being read. -/
  pending : Option Sequence := none
  deriving DecidableEq, Repr

namespace Decoder

/-- Takes a byte between two characters. -/
def first (text : Array Char) (b : UInt8) : Decoder :=
  if b < 0x80 then ⟨text.push (Char.ofNat b.toNat), none⟩
  else match Sequence.start? b with
    | some s => ⟨text, some s⟩
    | none => ⟨text.push replacement, none⟩

/-- Takes one byte. A byte that cannot continue the pending character ends it as a replacement and
is then taken as a first byte. -/
def feed (d : Decoder) (b : UInt8) : Decoder :=
  match d.pending with
  | none => first d.text b
  | some s =>
    if s.low ≤ b ∧ b ≤ s.high then
      let bits := s.bits * 64 + (b.toNat - 0x80)
      match s.later with
      | 0 => ⟨d.text.push (Char.ofNat bits), none⟩
      | later + 1 => ⟨d.text, some { later := later, low := 0x80, high := 0xBF, bits := bits }⟩
    else first (d.text.push replacement) b

/-- The text after the last byte; an incomplete character reads as a replacement. -/
def finish (d : Decoder) : List Char :=
  match d.pending with
  | none => d.text.toList
  | some _ => d.text.toList ++ [replacement]

end Decoder

/-- The text of a list of bytes. -/
def decode (bytes : List UInt8) : List Char := (bytes.foldl Decoder.feed {}).finish

end RiscvListing.Utf8
