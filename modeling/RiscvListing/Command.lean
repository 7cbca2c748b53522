import RiscvListing.Directory
import RiscvListing.Invocation
import RiscvListing.Log
import RiscvListing.Session

/-!
# Running commands

* `Status`, `Status.line`: the line that tells a user how a command went.
* `Notice`, `Notice.errorText`: what goes to the error stream, an event or such a line, and the
  text that comes of it.
* `Report`: what a command has to say and the code it exits with.
* `Report.disasm`, `Report.decode`: the two commands, given what the system made of the files.
* `Outcome`, `Invocation.run`: a whole invocation in a working directory.
-/

namespace RiscvListing

/-- How a command went. -/
inductive Status where
  /-- The listing is complete. -/
  | complete (stats : Stats)
  /-- The listing failed. -/
  | failed (failure : Failure)
  deriving DecidableEq, Repr

/-- The line for the user: a check mark if every word is an instruction, an exclamation mark if
some are not, a cross if the listing failed. -/
def Status.line : Status → String
  | .complete stats =>
    (if stats.invalid = 0 then "✓ " else "! ") ++ Numeral.natural stats.words ++ " words, " ++
      Numeral.natural stats.decoded ++ " decoded, " ++ Numeral.natural stats.invalid ++ " invalid"
  | .failed failure => "✗ " ++ failure.message

/-- What goes to the error stream. -/
inductive Notice where
  /-- An event, shown if the log's filter lets it through. -/
  | event (event : Event)
  /-- A line for the user. -/
  | status (status : Status)
  deriving DecidableEq, Repr

namespace Notice

/-- The event of a notice. -/
def event? : Notice → Option Event
  | .event e => some e
  | .status _ => none

/-- The status of a notice. -/
def status? : Notice → Option Status
  | .event _ => none
  | .status s => some s

/-- The line of a notice, if the filter shows it. -/
def line? (filter : LogFilter) : Notice → Option String
  | .event e => if filter.shows e.level then some e.logLine else none
  | .status s => some s.line

/-- The text of the error stream: a line for each notice that the filter shows. What a line shows
as it is may hold line ends of its own. -/
def errorText (filter : LogFilter) (notices : List Notice) : String :=
  String.join ((notices.filterMap (line? filter)).map (· ++ "\n"))

end Notice

/-- What a command has to say. -/
structure Report where
  /-- The exit code. -/
  exitCode : Nat
  /-- The bytes of the listing. -/
  listing : List UInt8
  /-- What goes to the error stream, in order. -/
  notices : List Notice

namespace Report

/-- The lines for the user, unless they are unwanted. -/
def statusNotices (silent : Bool) (status : Status) : List Notice :=
  if silent then [] else [.status status]

/-- The report of a file, from how its listing went. -/
def ofListing (options : DisasmOptions) (silent : Bool) (outcome : Listing.Outcome) : Report :=
  let (exitCode, last, status) : Nat × Event × Status := match outcome.result with
    | .ok stats => (0, .done stats, .complete stats)
    | .error failure => (1, .disassemblyFailed failure, .failed failure)
  { exitCode := exitCode
    listing := outcome.written
    notices :=
      (.disassembling options.input options.config.inputFormat :: (outcome.events ++ [last])).map
        .event ++ statusNotices silent status }

/-- Disassembles a file. `opened` tells whether the file for the listing could be made, which
happens before the input is read. -/
def disasm (options : DisasmOptions) (silent : Bool) (host : Host)
    (opened : Except IoError Unit) (contents : Except IoError (List UInt8)) : Report :=
  ofListing options silent <| match opened with
    | .error e => .failed (.io e) {}
    | .ok () => (Source.file options.input contents).list options.config host {}

/-- The choices for words given as arguments: they are few, and invalid ones are marked. -/
def decodeConfig (registers : RegisterNames) : Config :=
  { onInvalid := .mark, registers := registers, jobs := 1 }

/-- Decodes words given as arguments; the exit code tells whether all are instructions. -/
def decode (words : List Word) (registers : RegisterNames) (host : Host) : Report :=
  let outcome := Listing.run (decodeConfig registers) host {} words
  let (exitCode, last) : Nat × List Event := match outcome.result with
    | .ok stats => if stats.invalid = 0 then (0, []) else (1, [.someInvalid stats.invalid])
    | .error failure => (1, [.decodeFailed failure])
  { exitCode := exitCode
    listing := outcome.written
    notices := (outcome.events ++ last).map .event }

end Report

/-- What came of an invocation. -/
structure Outcome where
  /-- The exit code. -/
  exitCode : Nat
  /-- The bytes printed. -/
  stdout : List UInt8
  /-- What went to the error stream, in order. -/
  notices : List Notice
  /-- The working directory, with all files, afterwards. -/
  directory : Directory

/-- Runs an invocation. A listing that goes to a file replaces it before the input is read. -/
def Invocation.run (invocation : Invocation) (host : Host) (directory : Directory) :
    Outcome :=
  match invocation.command with
  | .decode words registers =>
    let report := Report.decode words registers host
    ⟨report.exitCode, report.listing, report.notices, directory⟩
  | .disasm options =>
    match options.output with
    | none =>
      let report := Report.disasm options invocation.silent host (.ok ())
        (directory.read options.input)
      ⟨report.exitCode, report.listing, report.notices, directory⟩
    | some path =>
      match directory.create path with
      | .error e =>
        let report := Report.disasm options invocation.silent host (.error e)
          (directory.read options.input)
        ⟨report.exitCode, [], report.notices, directory⟩
      | .ok target =>
        let opened := directory.write target []
        let report := Report.disasm options invocation.silent host (.ok ())
          (opened.read options.input)
        ⟨report.exitCode, [], report.notices, opened.write target report.listing⟩

end RiscvListing
