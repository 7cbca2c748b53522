import RiscvListing.Config
import RiscvListing.Event
import RiscvListing.Instruction.Record
import RiscvListing.Plan
import RiscvListing.Sink

/-!
# Listings

A listing has one line per word, in order, each an instruction record or, where the policy says so,
the message about a rejected word.

* `Listing.address`, `Listing.columns`: the address of a word and the columns that show it.
* `Listing.Action`, `Listing.action`: what the policy makes of one decoded word.
* `Listing.Progress`, `Listing.perform`: carrying actions out on a sink, and counting the words.
* `Listing.fits`: whether every address of a listing fits into a word.
* `Listing.decodeWords`, `Listing.listDecoded`: decoding all words, and listing them once they are
  decoded.
* `Listing.Outcome`, `Listing.run`: a whole listing.
-/

namespace RiscvListing.Listing

/-! ## Lines -/

/-- The address of the word at an index. It wraps around at the end of the address space. -/
def address (config : Config) (index : Nat) : Word := config.base + 4 * BitVec.ofNat 32 index

/-- The columns in front of a line: address and word, if the listing shows them. -/
def columns (config : Config) (index : Nat) (word : Word) : String :=
  if config.addresses then
    Numeral.hexPadded 8 (address config index).toNat ++ ":\t" ++
      Numeral.hexPadded 8 word.toNat ++ "\t"
  else ""

/-- What is done about one word. -/
inductive Action where
  /-- A line is written, after the event about the word if it is invalid. -/
  | write (event : Option Event) (line : String)
  /-- Nothing is written, which is reported. -/
  | leaveOut (event : Event)
  /-- The listing ends. -/
  | stop (rejection : Rejection)
  deriving DecidableEq, Repr

/-- What the policy makes of the word at an index. -/
def action (config : Config) (index : Nat) (word : Word) :
    Except Rejection Instruction → Action
  | .ok i => .write none (columns config index word ++ i.record config.registers)
  | .error r =>
    match config.onInvalid with
    | .abort => .stop r
    | .skip => .leaveOut (.skippingInvalid (address config index) r)
    | .mark =>
      .write (some (.markingInvalid (address config index) r))
        (columns config index word ++ r.message ++ "\n")

/-- The actions for a list of words with their decodings. -/
def actions (config : Config) (words : List Word)
    (results : List (Except Rejection Instruction)) : List Action :=
  ((words.zip results).zipIdx).map fun ((word, result), index) =>
    action config index word result

/-! ## Writing -/

/-- A listing that is being written. -/
structure Progress where
  /-- The sink as it is now. -/
  sink : Sink
  /-- The bytes that the sink took. -/
  written : Array UInt8 := #[]
  /-- How often the sink was flushed. -/
  flushes : Nat := 0
  /-- The events so far. -/
  events : Array Event := #[]
  /-- The words so far that stand for an instruction. -/
  decoded : Nat := 0
  /-- The words so far that do not. -/
  invalid : Nat := 0

namespace Progress

/-- Counts a word: as an instruction, or as invalid with the event about it. -/
def report (p : Progress) : Option Event → Progress
  | none => { p with decoded := p.decoded + 1 }
  | some event => { p with invalid := p.invalid + 1, events := p.events.push event }

/-- Writes a line; of a line that does not fit, the bytes that the sink took stay written. -/
def write (p : Progress) (line : String) : Except IoError Unit × Progress :=
  let bytes := Utf8.encode line.toList
  let (sink, count) := p.sink.writeAll bytes.length
  let after := { p with sink := sink, written := p.written ++ bytes.take count }
  (if count = bytes.length then .ok () else .error .sinkFull, after)

/-- Flushes the sink. -/
def flush (p : Progress) : Except IoError Unit × Progress :=
  (if p.sink.flushFails then .error .flushFailed else .ok (),
    { p with flushes := p.flushes + 1 })

end Progress

/-- Carries actions out in order and flushes the sink at the end. The first error ends the listing;
where a word ends it, the sink is flushed first and an error of that comes before the word's. -/
def perform : Progress → List Action → Except Failure Unit × Progress
  | p, [] =>
    match p.flush with
    | (.ok (), p) => (.ok (), p)
    | (.error e, p) => (.error (.io e), p)
  | p, .stop rejection :: _ =>
    match p.flush with
    | (.ok (), p) => (.error (.rejected rejection), p)
    | (.error e, p) => (.error (.io e), p)
  | p, .leaveOut event :: rest => perform (p.report (some event)) rest
  | p, .write event line :: rest =>
    match (p.report event).write line with
    | (.ok (), p) => perform p rest
    | (.error e, p) => (.error (.io e), p)

/-! ## Whole listings -/

/-- Shorter lists than this are decoded in one piece. -/
def parallelThreshold : Nat := 4096

/-- Decodes the words, cut by the host's plan if there are several decoders and enough words. The
event tells that the list is cut, for which a pool of decoders has to be built. -/
def decodeWords (config : Config) (host : Host) (words : List Word) :
    Except Failure (List (Except Rejection Instruction)) × List Event :=
  let jobs := config.effectiveJobs host.processors
  if jobs ≤ 1 ∨ words.length < parallelThreshold then (.ok (words.map decode), [])
  else
    let cutting : List Event := [.decodingInParallel jobs words.length]
    match host.poolError jobs with
    | some text => (.error (.threadPool text), cutting)
    | none => (.ok (decodeAll (host.plan jobs words.length) words), cutting)

/-- The events about the words that were rejected. -/
def rejections (results : List (Except Rejection Instruction)) : List Event :=
  results.filterMap fun
    | .ok _ => none
    | .error r => some (.unsupportedEncoding r)

/-- Whether the address of the last of so many words fits into a word. -/
def fits (config : Config) (count : Nat) : Bool :=
  config.base.toNat + 4 * (count - 1) ≤ 0xFFFFFFFF

/-- What came of a listing. -/
structure Outcome where
  /-- The counts, or why the listing is not complete. -/
  result : Except Failure Stats
  /-- The bytes that the sink took. -/
  written : List UInt8
  /-- How often the sink was flushed. -/
  flushes : Nat
  /-- The events, in order. -/
  events : List Event
  /-- The sink afterwards. -/
  sink : Sink

/-- The outcome of a listing that failed before anything was written. -/
def Outcome.failed (failure : Failure) (sink : Sink) : Outcome :=
  ⟨.error failure, [], 0, [], sink⟩

/-- Lists words that have been decoded, after the events of decoding them. -/
def listDecoded (config : Config) (sink : Sink) (words : List Word)
    (results : List (Except Rejection Instruction)) (events : List Event) : Outcome :=
  match perform { sink := sink, events := events.toArray } (actions config words results) with
  | (.error failure, p) => ⟨.error failure, p.written.toList, p.flushes, p.events.toList, p.sink⟩
  | (.ok (), p) =>
    let stats : Stats := ⟨words.length, p.decoded, p.invalid⟩
    ⟨.ok stats, p.written.toList, p.flushes, p.events.toList ++ [.listingComplete stats], p.sink⟩

/-- Lists words on a sink. Addresses are only checked if they are shown; all words are decoded
before the first line is written. -/
def run (config : Config) (host : Host) (sink : Sink) (words : List Word) : Outcome :=
  if config.addresses && !fits config words.length then
    .failed (.invalidAddressRange config.base words.length) sink
  else match decodeWords config host words with
    | (.error failure, cutting) => { Outcome.failed failure sink with events := cutting }
    | (.ok results, cutting) =>
      listDecoded config sink words results (cutting ++ rejections results)

end RiscvListing.Listing
