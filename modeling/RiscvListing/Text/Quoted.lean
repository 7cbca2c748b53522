import RiscvListing.Text.Numeral
import RiscvListing.Text.Printable

/-!
# Quoted text

Messages and log lines show foreign text between double quotes, so that it stays on one line and
can be read back.

* `Quoted.escape`: the spelling of one character between quotes.
* `quoteBy`, `quote`: a text between quotes, by any table of printable characters and by the one in
  use.
-/

namespace RiscvListing

/-- How a character is written between quotes: the quote, the backslash and the usual controls
after a backslash, printable characters as themselves, and any other by its code point. -/
def Quoted.escape (table : Printable.Table) (c : Char) : List Char :=
  if c = '\x00' then ['\\', '0']
  else if c = '\t' then ['\\', 't']
  else if c = '\r' then ['\\', 'r']
  else if c = '\n' then ['\\', 'n']
  else if c = '"' then ['\\', '"']
  else if c = '\\' then ['\\', '\\']
  else if table.shows c then [c]
  else ['\\', 'u', '\x7b'] ++ Nat.toDigits 16 c.toNat ++ ['\x7d']

/-- A text between double quotes, with the characters that need it escaped. -/
def quoteBy (table : Printable.Table) (text : String) : String :=
  String.ofList ('"' :: text.toList.flatMap (Quoted.escape table) ++ ['"'])

/-- A text between double quotes. -/
def quote (text : String) : String := quoteBy .unicode text

end RiscvListing
