import RiscvListing.Rejection
import RiscvListing.Text.Quoted

/-!
# Failures

Why a listing could not be produced in full.

* `IoError`: what can go wrong with a file or a sink, and its text.
* `Failure`: the causes, and `Failure.message`, the one-line text about them. It quotes foreign text
  (`Failure.messageBy`, by any table of printable characters).
-/

namespace RiscvListing

/-- What can go wrong with a file or a sink. -/
inductive IoError where
  /-- There is no such file. -/
  | notFound
  /-- A file stands where the path needs a directory. -/
  | notADirectory
  /-- A directory stands where the path needs a file. -/
  | isADirectory
  /-- A component of the path is longer than a file name may be. -/
  | nameTooLong
  /-- The path holds the character that ends paths. -/
  | nulInName
  /-- The sink took no more bytes. -/
  | sinkFull
  /-- The sink could not be flushed. -/
  | flushFailed
  /-- Another error of the system, with its own text. -/
  | other (text : String)
  deriving DecidableEq, Repr

/-- The text of an error, with the system's number where the system reports it. -/
def IoError.text : IoError → String
  | .notFound => "No such file or directory (os error 2)"
  | .notADirectory => "Not a directory (os error 20)"
  | .isADirectory => "Is a directory (os error 21)"
  | .nameTooLong => "File name too long (os error 36)"
  | .nulInName => "file name contained an unexpected NUL byte"
  | .sinkFull => "failed to write whole buffer"
  | .flushFailed => "flush failed"
  | .other text => text

/-- Why a listing failed. -/
inductive Failure where
  /-- The input could not be read or the sink did not take the listing. -/
  | io (error : IoError)
  /-- A word stands for no instruction and the policy is to stop there. -/
  | rejected (rejection : Rejection)
  /-- Binary input of this many bytes does not consist of whole words. -/
  | truncatedInput (length : Nat)
  /-- A line of hexadecimal input, counted from one, spells no word. -/
  | invalidHexWord (line : Nat) (text : String)
  /-- The last address of the listing would not fit into a word. -/
  | invalidAddressRange (base : Word) (words : Nat)
  /-- The decoders could not be set to work, with the text of the system about it. -/
  | threadPool (text : String)
  /-- A record did not fit into its character sink. -/
  | formatting
  deriving DecidableEq, Repr

/-- The message about a failure, on one line. -/
def Failure.messageBy (table : Printable.Table) : Failure → String
  | .io error => "IO error: " ++ error.text
  | .rejected rejection => rejection.message
  | .truncatedInput length =>
    "Input length " ++ Numeral.natural length ++ " is not a multiple of 4 bytes"
  | .invalidHexWord line text =>
    "Line " ++ Numeral.natural line ++ ": invalid hex word " ++ quoteBy table text
  | .invalidAddressRange base words =>
    "Listing of " ++ Numeral.natural words ++ " words from 0x" ++
      Numeral.hexPadded 8 base.toNat ++ " exceeds the 32-bit address space"
  | .threadPool text => "Failed to build decode thread pool: " ++ text
  | .formatting => "Formatting error"

/-- The message about a failure. -/
def Failure.message (failure : Failure) : String := failure.messageBy .unicode

end RiscvListing
