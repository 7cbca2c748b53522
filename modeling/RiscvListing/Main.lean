import RiscvListing.Command
import RiscvListing.Usage.Parser

/-!
# The program

The outer layer: arguments, files and streams. Everything that is decided is decided elsewhere.

* `Terminal.usageText`: what is printed for help.
* `Terminal.perform`: carries an invocation out on the file system.
* `main`: the entry point.
-/

namespace RiscvListing.Terminal

/-- The text for users who ask for help. -/
def usageText : String :=
  "RISC-V disassembler - renders RV32IM instruction words as assembly text\n\n" ++
  "Usage: riscv-listing [-v | -s] disasm FILE [-o FILE] [--format binary|hex]\n" ++
  "           [--on-invalid abort|skip|mark] [--abi] [--addresses] [--base ADDR] [-j JOBS]\n" ++
  "       riscv-listing [-v | -s] decode WORD... [--abi]"

/-- The line about a command line that is not carried out. -/
def issueText : Usage.Issue → String
  | .displayHelp | .nothingGiven => usageText
  | .displayVersion => "riscv-listing 0.1.0"
  | .unknownArgument => "error: unexpected argument"
  | .invalidValue => "error: invalid value"
  | .malformedValue => "error: malformed value"
  | .conflict => "error: arguments cannot be used together"
  | .unwantedValue => "error: unexpected value for an option"
  | .unknownCommand => "error: unrecognized command"
  | .missingCommand => "error: a command is required"
  | .missingArgument => "error: a required argument was not provided"

/-- The text of an error that has no case of its own, with the system's number. -/
def systemText (code : UInt32) (details : String) : String :=
  details.capitalize ++ " (os error " ++ Numeral.natural code.toNat ++ ")"

/-- An error of the system in this library's terms. -/
def ioError : IO.Error → IoError
  | .noFileOrDirectory .. => .notFound
  | .inappropriateType _ 20 _ => .notADirectory
  | .inappropriateType _ 21 _ => .isADirectory
  | .invalidArgument _ 36 _ => .nameTooLong
  | .permissionDenied _ code details | .invalidArgument _ code details
  | .resourceExhausted _ code details | .inappropriateType _ code details
  | .noSuchThing _ code details | .otherError code details =>
    .other (systemText code details)
  | e => .other (toString e)

/-- The contents of a file, or why it cannot be read. -/
def readFile (path : String) : IO (Except IoError (List UInt8)) := do
  try
    let handle ← IO.FS.Handle.mk path .read
    return .ok (← handle.readBinToEnd).toList
  catch e => return .error (ioError e)

/-- Opens the file for a listing and empties it. -/
def openFile (path : String) : IO (Except IoError IO.FS.Handle) := do
  try
    return .ok (← IO.FS.Handle.mk path .write)
  catch e => return .error (ioError e)

/-- The number of processors that the system lists. -/
def processors : IO Nat := do
  try
    let lines ← IO.FS.lines "/proc/cpuinfo"
    return (lines.filter fun line => line.startsWith "processor").size
  catch _ => return 1

/-- Carries an invocation out and gives the exit code. -/
def perform (invocation : Invocation) (filter : LogFilter) : IO Nat := do
  let host : Host := { processors := ← processors }
  match invocation.command with
  | .decode words registers =>
    let report := Report.decode words registers host
    (← IO.getStdout).write ⟨report.listing.toArray⟩
    IO.eprint (Notice.errorText filter report.notices)
    return report.exitCode
  | .disasm options =>
    let target ← options.output.mapM openFile
    let opened : Except IoError Unit := match target with
      | some (.error e) => .error e
      | _ => .ok ()
    let report := Report.disasm options invocation.silent host opened
      (← readFile options.input)
    match target with
    | some (.ok handle) => handle.write ⟨report.listing.toArray⟩
    | some (.error _) => pure ()
    | none => (← IO.getStdout).write ⟨report.listing.toArray⟩
    IO.eprint (Notice.errorText filter report.notices)
    return report.exitCode

end RiscvListing.Terminal

open RiscvListing in
/-- The entry point. The variable `RUST_LOG` names the least important level of events that is
shown, in place of the switches. -/
def main (args : List String) : IO UInt32 := do
  match Usage.parse args with
  | .error issue =>
    let text := Terminal.issueText issue
    if issue.exitCode = 0 then IO.println text else IO.eprintln text
    return issue.exitCode.toUInt32
  | .ok invocation =>
    let filter := LogFilter.choose (← IO.getEnv "RUST_LOG") invocation.verbose invocation.silent
    return (← Terminal.perform invocation filter).toUInt32
