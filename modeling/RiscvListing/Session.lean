import RiscvListing.Listing

/-!
# Sessions

Several inputs may be listed one after the other on one sink.

* `Source`: the words themselves, a buffer, or a file with what reading it gave.
* `Source.read`: the words of a source, with the event about reading it.
* `Source.list`: the listing of a source.
* `Session.run`: the listings of several sources on one sink.
-/

namespace RiscvListing

/-- Where the words of a listing come from. -/
inductive Source where
  /-- The words themselves. -/
  | words (words : List Word)
  /-- A buffer in the configured encoding. -/
  | bytes (bytes : List UInt8)
  /-- A file at a path, with its contents or why it could not be read. -/
  | file (path : String) (contents : Except IoError (List UInt8))

namespace Source

/-- The words of a source, and the events of reading it. -/
def read (format : InputFormat) : Source → Except Failure (List Word) × List Event
  | .words ws => (.ok ws, [])
  | .bytes bs => (Program.read bs format, [])
  | .file _ (.error e) => (.error (.io e), [])
  | .file path (.ok bs) => (Program.read bs format, [.readInput path bs.length format])

/-- Lists a source. A source that cannot be read leaves the sink alone. -/
def list (config : Config) (host : Host) (sink : Sink) (source : Source) :
    Listing.Outcome :=
  match source.read config.inputFormat with
  | (.error failure, events) => { Listing.Outcome.failed failure sink with events := events }
  | (.ok ws, events) =>
    let outcome := Listing.run config host sink ws
    { outcome with events := events ++ outcome.events }

end Source

/-- Lists sources in order on one sink; an error does not keep the later ones from being listed. -/
def Session.run (config : Config) (host : Host) : Sink → List Source → List Listing.Outcome
  | _, [] => []
  | sink, source :: rest =>
    let outcome := source.list config host sink
    outcome :: Session.run config host outcome.sink rest

end RiscvListing
