/-!
# Byte sinks

A listing is written to a sink that may take fewer bytes than it is offered.

* `Sink`: how much room is left, how many bytes one write takes, and whether flushing fails.
* `Sink.accepts`: how many bytes of an offer one write takes.
* `Sink.writeAll`: offers bytes again and again until all are taken or none are.

Only the number of bytes matters to a sink, so that is what these functions speak about.
-/

namespace RiscvListing

/-- A sink for bytes. The usual one has no limits and does not fail. -/
structure Sink where
  /-- The number of bytes it will still take, if that is limited. -/
  room : Option Nat := none
  /-- The most bytes that it takes at once, if that is limited. -/
  chunk : Option Nat := none
  /-- Whether flushing it fails. -/
  flushFails : Bool := false
  deriving DecidableEq, Repr

namespace Sink

/-- How many of `offered` bytes one write takes. -/
def accepts (sink : Sink) (offered : Nat) : Nat :=
  min (min offered (sink.chunk.getD offered)) (sink.room.getD offered)

/-- One write takes at most what it is offered. -/
theorem accepts_le (sink : Sink) (offered : Nat) : sink.accepts offered ≤ offered :=
  Nat.le_trans (Nat.min_le_left _ _) (Nat.min_le_left _ _)

/-- The sink after it has taken some bytes. -/
def taking (sink : Sink) (count : Nat) : Sink := { sink with room := sink.room.map (· - count) }

/-- Offers `count` bytes until all are taken or a write takes none; gives the sink afterwards and
the number of bytes it took. -/
def writeAll (sink : Sink) (count : Nat) : Sink × Nat :=
  let accepted := sink.accepts count
  if _h : accepted = 0 then (sink, 0)
  else
    let (after, later) := writeAll (sink.taking accepted) (count - accepted)
    (after, accepted + later)
termination_by count
decreasing_by
  have := sink.accepts_le count
  omega

end Sink

end RiscvListing
