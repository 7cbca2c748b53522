import RiscvListing.Listing
import Mathlib

/-!
# Carrying actions out on a sink

What a listing does on a sink depends on the bytes it wants to write and on the room of the sink,
and on nothing else.

* `Sink.takes sink n`: how many of `n` bytes the sink takes in all, in as many writes as it needs.
  `Sink.writeAll_eq` says that repeated writes come to exactly that, whatever the chunk.
* `lineBytes`, `ending`, `reported`: the bytes, the end and the events of a list of actions when
  nothing goes wrong.
* **Performing actions** (`perform_spec`): the sink takes the first bytes of `lineBytes`, as many as
  it has room for; if that is all of them it is flushed once and the listing ends as `ending` says,
  unless flushing fails; otherwise the listing ends at the full sink, without a flush.
* **On any sink**, also one that takes nothing (`perform_isPrefix`): a first part of the lines is
  written and a first part of the events is reported.
* **The chunk has no influence** (`perform_setChunk`).
* **The counters** (`counts_perform`): when all actions are performed, each of them is counted once,
  so the counts of a listing are those of its words (`counts_perform_actions`).
* `Sink.NeverFails`: a sink that takes everything. A listing on such a sink is the bytes, the end
  and the events of its actions (`run_of_neverFails`).
* `Outcome.warnings`: the events of a listing that warn.

The other statements assume that a write takes at least one byte where there is room
(`Sink.Advances`); a chunk of zero would make every write fail.
-/

namespace RiscvListing

/-! ## Repeated writes -/

namespace Sink

/-- A write that is offered bytes takes some of them, as long as there is room. -/
def Advances (sink : Sink) : Prop := sink.chunk ≠ some 0

instance (sink : Sink) : Decidable sink.Advances := inferInstanceAs (Decidable (_ ≠ _))

/-- How many of `n` bytes the sink takes in all. -/
def takes (sink : Sink) (n : Nat) : Nat := min n (sink.room.getD n)

theorem takes_le (sink : Sink) (n : Nat) : sink.takes n ≤ n := Nat.min_le_left _ _

@[simp] theorem chunk_taking (sink : Sink) (n : Nat) : (sink.taking n).chunk = sink.chunk := rfl

@[simp] theorem flushFails_taking (sink : Sink) (n : Nat) :
    (sink.taking n).flushFails = sink.flushFails := rfl

@[simp] theorem room_taking (sink : Sink) (n : Nat) :
    (sink.taking n).room = sink.room.map (· - n) := rfl

@[simp] theorem taking_zero (sink : Sink) : sink.taking 0 = sink := by
  obtain ⟨room, chunk, flushFails⟩ := sink
  cases room <;> rfl

@[simp] theorem taking_taking (sink : Sink) (a b : Nat) :
    (sink.taking a).taking b = sink.taking (a + b) := by
  obtain ⟨room, chunk, flushFails⟩ := sink
  cases room <;> simp [taking, Nat.sub_sub]

theorem Advances.taking {sink : Sink} (h : sink.Advances) (n : Nat) : (sink.taking n).Advances := h

/-- A sink without a limit takes everything. -/
theorem takes_of_none {sink : Sink} (h : sink.room = none) (n : Nat) : sink.takes n = n := by
  simp [takes, h]

/-- A sink with a limit takes what there is room for. -/
theorem takes_of_some {sink : Sink} {r : Nat} (h : sink.room = some r) (n : Nat) :
    sink.takes n = min n r := by
  simp [takes, h]

/-- A sink takes all of `n` bytes if there is room for them. -/
theorem takes_eq_iff (sink : Sink) (n : Nat) : sink.takes n = n ↔ ∀ r ∈ sink.room, n ≤ r := by
  rcases hroom : sink.room with _ | r
  · simp [takes_of_none hroom]
  · simp [takes_of_some hroom]

theorem takes_lt_iff (sink : Sink) (n : Nat) : sink.takes n < n ↔ ∃ r ∈ sink.room, r < n := by
  rcases hroom : sink.room with _ | r
  · simp [takes_of_none hroom]
  · simp [takes_of_some hroom]

/-- One write takes nothing only if nothing is offered or there is no room. -/
theorem accepts_eq_zero {sink : Sink} (h : sink.Advances) {n : Nat} (h0 : sink.accepts n = 0) :
    n = 0 ∨ sink.room = some 0 := by
  have hchunk : sink.chunk.getD n = 0 → n = 0 := by
    rcases hc : sink.chunk with _ | c
    · exact id
    · rintro rfl
      exact absurd hc h
  unfold accepts at h0
  rcases hroom : sink.room with _ | r
  · left
    rw [hroom, Option.getD_none] at h0
    omega
  · rw [hroom, Option.getD_some] at h0
    by_cases hr : r = 0
    · exact .inr (congrArg some hr)
    · left
      omega

/-- One write takes no more than the sink takes in all. -/
theorem accepts_le_takes (sink : Sink) (n : Nat) : sink.accepts n ≤ sink.takes n := by
  unfold accepts takes
  omega

/-- After a write, the sink takes that much less. -/
theorem takes_taking {sink : Sink} {count n : Nat} (h : count ≤ sink.takes n) :
    count + (sink.taking count).takes (n - count) = sink.takes n := by
  rcases hroom : sink.room with _ | r
  · have hafter : (sink.taking count).room = none := by rw [room_taking, hroom]; rfl
    rw [takes_of_none hroom] at h ⊢
    rw [takes_of_none hafter]
    omega
  · have hafter : (sink.taking count).room = some (r - count) := by rw [room_taking, hroom]; rfl
    rw [takes_of_some hroom] at h ⊢
    rw [takes_of_some hafter]
    omega

/-- A longer offer is not taken to a lesser part. -/
theorem takes_le_takes_add (sink : Sink) (n m : Nat) : sink.takes n ≤ sink.takes (n + m) := by
  rcases hroom : sink.room with _ | r
  · rw [takes_of_none hroom, takes_of_none hroom]
    omega
  · rw [takes_of_some hroom, takes_of_some hroom]
    omega

/-- A sink that takes all of `n` bytes takes more of a longer offer as if it were offered the rest
afterwards. -/
theorem takes_add_of_fits {sink : Sink} {n : Nat} (h : sink.takes n = n) (m : Nat) :
    sink.takes (n + m) = n + (sink.taking n).takes m := by
  have hle : n ≤ sink.takes (n + m) := h.symm.le.trans (sink.takes_le_takes_add n m)
  rw [← takes_taking hle, Nat.add_sub_cancel_left]

/-- A sink that does not take all of `n` bytes takes no more of a longer offer. -/
theorem takes_add_of_full {sink : Sink} {n : Nat} (h : sink.takes n < n) (m : Nat) :
    sink.takes (n + m) = sink.takes n := by
  obtain ⟨r, hroom, hlt⟩ := (takes_lt_iff sink n).mp h
  rw [takes_of_some hroom, takes_of_some hroom]
  omega

/-- A sink that does not take all of `n` bytes is full after them. -/
theorem taking_add_of_full {sink : Sink} {n : Nat} (h : sink.takes n < n) (m : Nat) :
    sink.taking (n + m) = sink.taking n := by
  obtain ⟨r, hroom, hlt⟩ := (takes_lt_iff sink n).mp h
  have hfull : r - (n + m) = r - n := by omega
  unfold taking
  rw [show sink.room = some r from hroom, Option.map_some, Option.map_some, hfull]

/-- The sink takes every byte, in pieces perhaps, and can be flushed. -/
structure NeverFails (sink : Sink) : Prop where
  /-- A write takes some bytes. -/
  advances : sink.Advances
  /-- There is room for everything. -/
  unlimited : sink.room = none
  /-- Flushing works. -/
  flushable : sink.flushFails = false

/-- A sink without limits never fails. -/
theorem neverFails_default : NeverFails {} := ⟨by decide, rfl, rfl⟩

theorem NeverFails.taking_eq {sink : Sink} (h : sink.NeverFails) (n : Nat) :
    sink.taking n = sink := by
  obtain ⟨room, chunk, flushFails⟩ := sink
  obtain rfl : room = none := h.unlimited
  rfl

/-- **Repeated writes fill the sink**: they take what the sink takes in all, whatever the chunk. -/
theorem writeAll_eq {sink : Sink} (h : sink.Advances) (n : Nat) :
    sink.writeAll n = (sink.taking n, sink.takes n) := by
  fun_induction writeAll sink n with
  | case1 sink n accepted h0 =>
      rcases accepts_eq_zero h h0 with rfl | hroom
      · simp [takes]
      · obtain ⟨room, chunk, flushFails⟩ := sink
        subst hroom
        simp [takes, taking]
  | case2 sink n accepted h0 after later heq ih =>
      have hle : accepted ≤ sink.takes n := accepts_le_takes sink n
      have hn : accepted + (n - accepted) = n := by
        have := sink.takes_le n
        omega
      have hrec := heq.symm.trans (ih (h.taking accepted))
      obtain ⟨rfl, rfl⟩ := Prod.mk.inj hrec
      rw [taking_taking, hn, takes_taking hle]

end Sink

/-! ## One line -/

namespace Listing

@[simp] theorem Progress.sink_report (p : Progress) (event : Option Event) :
    (p.report event).sink = p.sink := by cases event <;> rfl

@[simp] theorem Progress.written_report (p : Progress) (event : Option Event) :
    (p.report event).written = p.written := by cases event <;> rfl

@[simp] theorem Progress.flushes_report (p : Progress) (event : Option Event) :
    (p.report event).flushes = p.flushes := by cases event <;> rfl

@[simp] theorem Progress.toList_events_report (p : Progress) (event : Option Event) :
    (p.report event).events.toList = p.events.toList ++ event.toList := by
  cases event <;> simp [Progress.report]

/-- **One line on a sink**: the bytes that there is room for are written, and the write succeeds if
these are all of them. -/
theorem Progress.write_eq {p : Progress} (h : p.sink.Advances) (line : String) :
    p.write line =
      (if p.sink.takes (Utf8.encode line.toList).length = (Utf8.encode line.toList).length
        then .ok () else .error .sinkFull,
       { p with
         sink := p.sink.taking (Utf8.encode line.toList).length
         written := p.written ++
          (Utf8.encode line.toList).take (p.sink.takes (Utf8.encode line.toList).length) }) := by
  unfold Progress.write
  simp only [Sink.writeAll_eq h]

/-! ## Many actions -/

/-- The bytes that actions write where nothing goes wrong. -/
def lineBytes : List Action → List UInt8
  | [] => []
  | .stop _ :: _ => []
  | .leaveOut _ :: rest => lineBytes rest
  | .write _ line :: rest => Utf8.encode line.toList ++ lineBytes rest

/-- How actions end where nothing goes wrong. -/
def ending : List Action → Except Failure Unit
  | [] => .ok ()
  | .stop rejection :: _ => .error (.rejected rejection)
  | .leaveOut _ :: rest => ending rest
  | .write _ _ :: rest => ending rest

/-- The events of actions where nothing goes wrong. -/
def reported : List Action → List Event
  | [] => []
  | .stop _ :: _ => []
  | .leaveOut event :: rest => event :: reported rest
  | .write event _ :: rest => event.toList ++ reported rest

/-- What performing actions comes to: `p` before, `q` after. -/
structure Performed (p : Progress) (actions : List Action) (result : Except Failure Unit)
    (q : Progress) : Prop where
  /-- The first bytes of the lines are written, as many as there is room for. -/
  written : q.written.toList =
    p.written.toList ++ (lineBytes actions).take (p.sink.takes (lineBytes actions).length)
  /-- The room is less by the bytes of the lines. -/
  sink : q.sink = p.sink.taking (lineBytes actions).length
  /-- A sink that does not take all bytes ends the listing and is not flushed. -/
  full : p.sink.takes (lineBytes actions).length < (lineBytes actions).length →
    result = .error (.io .sinkFull) ∧ q.flushes = p.flushes
  /-- A sink that takes all bytes is flushed once, and an error of that comes first. -/
  fits : p.sink.takes (lineBytes actions).length = (lineBytes actions).length →
    result = (if p.sink.flushFails then .error (.io .flushFailed) else ending actions) ∧
      q.flushes = p.flushes + 1 ∧ q.events.toList = p.events.toList ++ reported actions

/-- Flushing at the end of the actions. -/
theorem performed_flush (p : Progress) {actions : List Action} {result : Except Failure Unit}
    (hbytes : lineBytes actions = []) (hev : reported actions = [])
    (hres : result = if p.sink.flushFails then .error (.io .flushFailed) else ending actions) :
    Performed p actions result p.flush.2 where
  written := by simp [hbytes, Progress.flush]
  sink := by simp [hbytes, Progress.flush]
  full := by simp [hbytes]
  fits := fun _ => ⟨hres, rfl, by simp [hev, Progress.flush]⟩

/-- An event before actions that were performed. -/
theorem Performed.cons_leaveOut {p q : Progress} {event : Event} {rest : List Action}
    {result : Except Failure Unit} (hrest : Performed (p.report (some event)) rest result q) :
    Performed p (.leaveOut event :: rest) result q := by
  obtain ⟨hwritten, hsink, hfull, hfits⟩ := hrest
  simp only [Progress.sink_report, Progress.written_report, Progress.flushes_report,
    Progress.toList_events_report] at hwritten hsink hfull hfits
  refine ⟨hwritten, hsink, hfull, fun hfit => ?_⟩
  obtain ⟨hres, hfl, hev⟩ := hfits hfit
  exact ⟨hres, hfl, by simp [hev, reported]⟩

/-- A line that fits, before actions that were performed. -/
theorem Performed.cons_fits {p q : Progress} {event : Option Event} {line : String}
    {rest : List Action} {result : Except Failure Unit}
    (hfit : p.sink.takes (Utf8.encode line.toList).length = (Utf8.encode line.toList).length)
    (hrest : Performed
      { p.report event with
        sink := p.sink.taking (Utf8.encode line.toList).length
        written := p.written ++ Utf8.encode line.toList } rest result q) :
    Performed p (.write event line :: rest) result q := by
  obtain ⟨hwritten, hsink, hfull, hfits⟩ := hrest
  simp only [Progress.flushes_report, Progress.toList_events_report, Array.toList_appendList,
    Sink.taking_taking, Sink.flushFails_taking] at hwritten hsink hfull hfits
  constructor <;> simp only [lineBytes, List.length_append, Sink.takes_add_of_fits hfit]
  · rw [hwritten, List.take_length_add_append, List.append_assoc]
  · exact hsink
  · intro hlt
    exact hfull (by omega)
  · intro heq
    obtain ⟨hres, hfl, hev⟩ := hfits (by omega)
    exact ⟨hres, hfl, by simp [hev, reported]⟩

/-- A line that does not fit ends the listing, whatever actions follow. -/
theorem performed_full {p : Progress} {event : Option Event} {line : String} (rest : List Action)
    (hfull : p.sink.takes (Utf8.encode line.toList).length < (Utf8.encode line.toList).length) :
    Performed p (.write event line :: rest) (.error (.io .sinkFull))
      { p.report event with
        sink := p.sink.taking (Utf8.encode line.toList).length
        written := p.written ++
          (Utf8.encode line.toList).take (p.sink.takes (Utf8.encode line.toList).length) } := by
  constructor <;>
    simp only [lineBytes, List.length_append, Sink.takes_add_of_full hfull,
      Sink.taking_add_of_full hfull, Progress.flushes_report]
  · rw [List.take_append_of_le_length (by omega), Array.toList_appendList]
  · exact fun _ => ⟨trivial, trivial⟩
  · intro heq
    omega

/-- **Performing actions on a sink.** -/
theorem perform_spec {p : Progress} (h : p.sink.Advances) (actions : List Action) :
    Performed p actions (perform p actions).1 (perform p actions).2 := by
  induction actions generalizing p with
  | nil =>
      have hperf : perform p [] =
          (if p.sink.flushFails then .error (.io .flushFailed) else .ok (), p.flush.2) := by
        unfold perform Progress.flush
        cases p.sink.flushFails <;> rfl
      rw [hperf]
      exact performed_flush p rfl rfl rfl
  | cons action rest ih =>
      cases action with
      | stop rejection =>
          have hperf : perform p (.stop rejection :: rest) =
              (if p.sink.flushFails then .error (.io .flushFailed)
                else .error (.rejected rejection), p.flush.2) := by
            unfold perform Progress.flush
            cases p.sink.flushFails <;> rfl
          rw [hperf]
          exact performed_flush p rfl rfl rfl
      | leaveOut event =>
          have hadv : (p.report (some event)).sink.Advances := by rwa [Progress.sink_report]
          exact (ih hadv).cons_leaveOut
      | write event line =>
          have hadv : (p.report event).sink.Advances := by rwa [Progress.sink_report]
          unfold perform
          rw [Progress.write_eq hadv, Progress.sink_report, Progress.written_report]
          rcases (p.sink.takes_le (Utf8.encode line.toList).length).lt_or_eq with hlt | heq
          · rw [if_neg (Nat.ne_of_lt hlt)]
            exact performed_full rest hlt
          · rw [if_pos heq, heq, List.take_length]
            refine Performed.cons_fits heq (ih ?_)
            exact h.taking _

/-! ## Any sink -/

/-- Writing a line leaves the events as they are, and writes the first bytes of the line; these are
all of them if it succeeds. -/
theorem Progress.write_spec (p : Progress) (line : String) :
    (p.write line).2.events = p.events ∧
    (p.write line).2.written.toList <+: p.written.toList ++ Utf8.encode line.toList ∧
    ((p.write line).1 = .ok () →
      (p.write line).2.written.toList = p.written.toList ++ Utf8.encode line.toList) := by
  unfold Progress.write
  generalize p.sink.writeAll (Utf8.encode line.toList).length = w
  obtain ⟨sink, count⟩ := w
  dsimp only
  rw [Array.toList_appendList]
  refine ⟨rfl, ?_, fun hok => ?_⟩
  · exact List.prefix_append_right_inj _ |>.mpr (List.take_prefix _ _)
  · split at hok
    · rename_i hcount
      rw [hcount, List.take_length]
    · exact nomatch hok

/-- What performing actions comes to on any sink: `p` before, `q` after. -/
structure PerformedInPart (p : Progress) (actions : List Action) (result : Except Failure Unit)
    (q : Progress) : Prop where
  /-- A first part of the lines is written. -/
  written : q.written.toList <+: p.written.toList ++ lineBytes actions
  /-- A first part of the events is reported. -/
  events : q.events.toList <+: p.events.toList ++ reported actions
  /-- The addresses are not to blame for a failure. -/
  failure : ∀ base count, result ≠ .error (.invalidAddressRange base count)

/-- **Performing actions on any sink.** -/
theorem perform_isPrefix (p : Progress) (actions : List Action) :
    PerformedInPart p actions (perform p actions).1 (perform p actions).2 := by
  induction actions generalizing p with
  | nil =>
      unfold perform Progress.flush
      cases p.sink.flushFails <;> exact ⟨List.prefix_append _ _, List.prefix_append _ _, nofun⟩
  | cons action rest ih =>
      cases action with
      | stop rejection =>
          unfold perform Progress.flush
          cases p.sink.flushFails <;> exact ⟨List.prefix_append _ _, List.prefix_append _ _, nofun⟩
      | leaveOut event =>
          obtain ⟨hwritten, hevents, hfailure⟩ := ih (p.report (some event))
          rw [Progress.written_report] at hwritten
          rw [Progress.toList_events_report, List.append_assoc] at hevents
          exact ⟨hwritten, hevents, hfailure⟩
      | write event line =>
          obtain ⟨hsame, hpart, hall⟩ := (p.report event).write_spec line
          unfold perform
          rcases hw : (p.report event).write line with ⟨result, q⟩
          rw [hw] at hsame hpart hall
          dsimp only at hsame hpart hall
          rw [Progress.written_report] at hpart hall
          have hevents : q.events.toList = p.events.toList ++ event.toList := by
            rw [hsame, Progress.toList_events_report]
          rcases result with e | u
          · refine ⟨?_, ?_, nofun⟩
            · rw [lineBytes, ← List.append_assoc]
              exact hpart.trans (List.prefix_append _ _)
            · rw [reported, ← List.append_assoc, hevents]
              exact List.prefix_append _ _
          · obtain ⟨hwritten', hevents', hfailure⟩ := ih q
            rw [hall rfl, List.append_assoc] at hwritten'
            rw [hevents, List.append_assoc] at hevents'
            exact ⟨hwritten', hevents', hfailure⟩

/-! ## The chunk -/

/-- The same progress on a sink that takes another number of bytes at once. -/
def Progress.setChunk (p : Progress) (chunk : Option Nat) : Progress :=
  { p with sink := { p.sink with chunk := chunk } }

theorem Progress.report_setChunk (p : Progress) (chunk : Option Nat) (event : Option Event) :
    (p.setChunk chunk).report event = (p.report event).setChunk chunk := by
  cases event <;> rfl

theorem Progress.flush_setChunk (p : Progress) (chunk : Option Nat) :
    (p.setChunk chunk).flush = (p.flush.1, p.flush.2.setChunk chunk) := rfl

theorem Progress.write_setChunk {p : Progress} (h : p.sink.Advances) {chunk : Option Nat}
    (hc : chunk ≠ some 0) (line : String) :
    (p.setChunk chunk).write line = ((p.write line).1, (p.write line).2.setChunk chunk) := by
  have hadv : (p.setChunk chunk).sink.Advances := hc
  rw [Progress.write_eq h, Progress.write_eq hadv]
  rfl

/-- **How many bytes the sink takes at once has no influence** on what is written, reported and
flushed, nor on how the listing ends. -/
theorem perform_setChunk {p : Progress} (h : p.sink.Advances) {chunk : Option Nat}
    (hc : chunk ≠ some 0) (actions : List Action) :
    perform (p.setChunk chunk) actions =
      ((perform p actions).1, (perform p actions).2.setChunk chunk) := by
  induction actions generalizing p with
  | nil =>
      unfold perform
      rw [Progress.flush_setChunk]
      cases p.flush with
      | mk result q => cases result <;> rfl
  | cons action rest ih =>
      cases action with
      | stop rejection =>
          unfold perform
          rw [Progress.flush_setChunk]
          cases p.flush with
          | mk result q => cases result <;> rfl
      | leaveOut event =>
          unfold perform
          rw [Progress.report_setChunk]
          exact ih (by rwa [Progress.sink_report])
      | write event line =>
          have hadv : (p.report event).sink.Advances := by rwa [Progress.sink_report]
          unfold perform
          rw [Progress.report_setChunk, Progress.write_setChunk hadv hc]
          have hsink : ((p.report event).write line).2.sink.Advances := by
            rw [Progress.write_eq hadv]
            exact hadv.taking _
          cases hw : (p.report event).write line with
          | mk result q =>
              rw [hw] at hsink
              cases result with
              | ok u => exact ih hsink
              | error e => rfl

/-! ## The counters -/

@[simp] theorem Progress.decoded_report (p : Progress) (event : Option Event) :
    (p.report event).decoded = p.decoded + if event.isNone then 1 else 0 := by
  cases event <;> rfl

@[simp] theorem Progress.invalid_report (p : Progress) (event : Option Event) :
    (p.report event).invalid = p.invalid + if event.isNone then 0 else 1 := by
  cases event <;> rfl

theorem Progress.decoded_write (p : Progress) (line : String) :
    (p.write line).2.decoded = p.decoded := rfl

theorem Progress.invalid_write (p : Progress) (line : String) :
    (p.write line).2.invalid = p.invalid := rfl

/-- Whether an action is about a word that stands for an instruction. -/
def Action.isDecoded : Action → Bool
  | .write event _ => event.isNone
  | .leaveOut _ | .stop _ => false

/-- **The counters** of actions that were all performed: each of them is counted once. -/
theorem counts_perform {p : Progress} {actions : List Action}
    (h : (perform p actions).1 = .ok ()) :
    (perform p actions).2.decoded = p.decoded + actions.countP (·.isDecoded) ∧
    (perform p actions).2.invalid = p.invalid + actions.countP (!·.isDecoded) := by
  induction actions generalizing p with
  | nil =>
      unfold perform Progress.flush
      cases p.sink.flushFails <;> exact ⟨rfl, rfl⟩
  | cons action rest ih =>
      cases action with
      | stop rejection =>
          unfold perform Progress.flush at h
          cases hflush : p.sink.flushFails <;> rw [hflush] at h <;> exact nomatch h
      | leaveOut event =>
          obtain ⟨hdecoded, hinvalid⟩ := ih (p := p.report (some event)) h
          rw [Progress.decoded_report] at hdecoded
          rw [Progress.invalid_report] at hinvalid
          rw [perform, hdecoded, hinvalid, List.countP_cons, List.countP_cons]
          dsimp only [Action.isDecoded]
          grind
      | write event line =>
          have hdecoded := Progress.decoded_write (p.report event) line
          have hinvalid := Progress.invalid_write (p.report event) line
          unfold perform at h ⊢
          rcases hw : (p.report event).write line with ⟨result, q⟩
          rw [hw] at h hdecoded hinvalid
          rcases result with e | u
          · exact nomatch h
          · obtain ⟨hdecoded', hinvalid'⟩ := ih h
            dsimp only at hdecoded hinvalid ⊢
            rw [hdecoded', hinvalid', hdecoded, hinvalid, Progress.decoded_report,
              Progress.invalid_report, List.countP_cons, List.countP_cons]
            dsimp only [Action.isDecoded]
            grind

/-- An action is about an instruction exactly if its word is one. -/
theorem map_isDecoded_actions (config : Config) {words : List Word}
    {results : List (Except Rejection Instruction)} (h : results.length = words.length) :
    (actions config words results).map Action.isDecoded = results.map (·.isOk) := by
  have haction : ∀ index word result,
      (action config index word result).isDecoded = result.isOk := by
    intro index word result
    rcases result with r | i
    · unfold action
      cases config.onInvalid <;> rfl
    · rfl
  calc (actions config words results).map Action.isDecoded
      = (words.zip results).zipIdx.map fun x => x.1.2.isOk := by
        rw [actions, List.map_map]
        exact List.map_congr_left fun x _ => haction _ _ _
    _ = (((words.zip results).zipIdx.map Prod.fst).map Prod.snd).map (·.isOk) := by
        rw [List.map_map, List.map_map]
        rfl
    _ = results.map (·.isOk) := by rw [List.zipIdx_map_fst, List.map_snd_zip h.le]

/-- **The counters of a whole listing** are the counts of its results. -/
theorem counts_perform_actions (config : Config) {words : List Word}
    {results : List (Except Rejection Instruction)} (h : results.length = words.length)
    {p : Progress} (hdecoded : p.decoded = 0) (hinvalid : p.invalid = 0)
    (hok : (perform p (actions config words results)).1 = .ok ()) :
    Stats.mk words.length (perform p (actions config words results)).2.decoded
      (perform p (actions config words results)).2.invalid = Stats.ofResults results := by
  obtain ⟨hd, hi⟩ := counts_perform hok
  have hcount : ∀ f : Bool → Bool, (actions config words results).countP (fun a => f a.isDecoded) =
      results.countP fun result => f result.isOk := by
    intro f
    have hmap := congrArg (List.countP f) (map_isDecoded_actions config h)
    rw [List.countP_map, List.countP_map] at hmap
    exact hmap
  rw [hd, hi, hdecoded, hinvalid, Nat.zero_add, Nat.zero_add, hcount (fun b => b), hcount (!·),
    ← h]
  rfl

/-! ## Whole listings -/

/-- On a machine the words are decoded, and its plan has no influence on what they come to. -/
theorem fst_decodeWords (config : Config) (machine : Machine) (words : List Word) :
    (decodeWords config machine words).1 = .ok (words.map decode) := by
  unfold decodeWords
  dsimp only
  split
  · rfl
  · rw [machine.poolBuilds]
    exact congrArg Except.ok (Plan.map_eq_map decode _ words)

/-- Cutting the list is reported, whatever comes of it. -/
theorem snd_decodeWords (config : Config) (host : Host) (words : List Word) :
    (decodeWords config host words).2 =
      if config.effectiveJobs host.processors ≤ 1 ∨ words.length < parallelThreshold then []
      else [.decodingInParallel (config.effectiveJobs host.processors) words.length] := by
  unfold decodeWords
  dsimp only
  split
  · rfl
  · cases host.poolError (config.effectiveJobs host.processors) <;> rfl

/-- The actions for words. -/
def wordActions (config : Config) (words : List Word) : List Action :=
  actions config words (words.map decode)

/-- A listing before its first line: all words are decoded and the rejected ones reported. -/
def begun (config : Config) (machine : Machine) (sink : Sink) (words : List Word) : Progress where
  sink := sink
  events := ((decodeWords config machine words).2 ++ rejections (words.map decode)).toArray

/-- The result of a listing whose actions ended in this way. -/
def resultOf (words : List Word) (e : Except Failure Unit) : Except Failure Stats :=
  e.map fun _ => Stats.ofResults (words.map decode)

/-- The last event of a listing whose actions ended in this way. -/
def completion (words : List Word) : Except Failure Unit → List Event
  | .ok _ => [.listingComplete (Stats.ofResults (words.map decode))]
  | .error _ => []

/-- Addresses are in order if they are not shown or if the last one fits. -/
def AddressesFit (config : Config) (count : Nat) : Prop :=
  config.addresses = false ∨ fits config count = true

/-- Addresses that are in order pass the check. -/
theorem AddressesFit.check {config : Config} {count : Nat} (h : AddressesFit config count) :
    (config.addresses && !fits config count) = false := by
  rcases h with h | h <;> simp [h]

/-- A listing whose addresses are in order is that of its words, decoded. -/
theorem run_eq_listDecoded (config : Config) (machine : Machine) (sink : Sink) {words : List Word}
    (haddr : AddressesFit config words.length) :
    run config machine sink words = listDecoded config sink words (words.map decode)
      ((decodeWords config machine words).2 ++ rejections (words.map decode)) := by
  have hdecode : decodeWords config machine words =
      (.ok (words.map decode), (decodeWords config machine words).2) :=
    Prod.ext (fst_decodeWords config machine words) rfl
  unfold run
  rw [haddr.check, if_neg Bool.false_ne_true, hdecode]

/-- A listing whose addresses are in order is its actions, performed. -/
theorem run_eq (config : Config) (machine : Machine) (sink : Sink) {words : List Word}
    (haddr : AddressesFit config words.length) :
    run config machine sink words =
      let performed := perform (begun config machine sink words) (wordActions config words)
      ⟨resultOf words performed.1, performed.2.written.toList, performed.2.flushes,
        performed.2.events.toList ++ completion words performed.1, performed.2.sink⟩ := by
  rw [run_eq_listDecoded config machine sink haddr]
  unfold listDecoded wordActions
  split
  · rename_i failure q heq
    rw [begun, heq]
    simp [resultOf, completion, Except.map]
  · rename_i q heq
    have hstats := counts_perform_actions config (List.length_map decode) rfl rfl
      (congrArg Prod.fst heq)
    rw [heq] at hstats
    dsimp only at hstats
    rw [begun, heq, hstats]
    rfl

/-- A listing whose addresses are not in order fails before anything is written. -/
theorem run_eq_failed (config : Config) (machine : Machine) (sink : Sink) {words : List Word}
    (haddr : ¬ AddressesFit config words.length) :
    run config machine sink words =
      .failed (.invalidAddressRange config.base words.length) sink := by
  have hcheck : (config.addresses && !fits config words.length) = true := by
    simpa [AddressesFit] using haddr
  unfold run
  rw [hcheck, if_pos rfl]

/-- **A listing on a sink that never fails**: all bytes are written, the sink is flushed once, and
the listing ends as its actions do. -/
theorem run_of_neverFails (config : Config) (machine : Machine) {sink : Sink}
    (h : sink.NeverFails) {words : List Word} (haddr : AddressesFit config words.length) :
    run config machine sink words =
      ⟨resultOf words (ending (wordActions config words)), lineBytes (wordActions config words), 1,
        (begun config machine sink words).events.toList ++ reported (wordActions config words) ++
          completion words (ending (wordActions config words)), sink⟩ := by
  have hadv : (begun config machine sink words).sink.Advances := h.advances
  have htakes : ∀ n, (begun config machine sink words).sink.takes n = n :=
    Sink.takes_of_none h.unlimited
  have hflush : (begun config machine sink words).sink.flushFails = false := h.flushable
  have hsame : ∀ n, (begun config machine sink words).sink.taking n = sink := h.taking_eq
  obtain ⟨hwritten, hsink, -, hfits⟩ := perform_spec hadv (wordActions config words)
  obtain ⟨hres, hfl, hev⟩ := hfits (htakes _)
  rw [hflush, if_neg Bool.false_ne_true] at hres
  rw [htakes, List.take_length] at hwritten
  rw [hsame] at hsink
  rw [run_eq config machine sink haddr]
  dsimp only
  rw [hres, hwritten, hfl, hev, hsink]
  rfl

/-! ## Warnings -/

/-- The events that warn. -/
def warningsOf (events : List Event) : List Event := events.filter fun e => e.level = .warn

/-- The events of a listing that warn. -/
def Outcome.warnings (o : Outcome) : List Event := warningsOf o.events

theorem warningsOf_append (es fs : List Event) :
    warningsOf (es ++ fs) = warningsOf es ++ warningsOf fs :=
  List.filter_append es fs

theorem warningsOf_eq_nil {es : List Event} (h : ∀ e ∈ es, e.level ≠ .warn) :
    warningsOf es = [] := by
  refine List.filter_eq_nil_iff.mpr fun e he hlevel => ?_
  exact h e he (of_decide_eq_true hlevel)

/-- Rejected words are traced, which is no warning. -/
theorem warningsOf_rejections (results : List (Except Rejection Instruction)) :
    warningsOf (rejections results) = [] := by
  refine warningsOf_eq_nil fun e he => ?_
  obtain ⟨result, -, hresult⟩ := List.mem_filterMap.mp he
  rcases result with r | i
  · obtain rfl := Option.some.inj hresult
    exact Level.noConfusion
  · exact nomatch hresult

/-- Cutting the list is no warning. -/
theorem warningsOf_decodeWords (config : Config) (machine : Machine) (words : List Word) :
    warningsOf (decodeWords config machine words).2 = [] := by
  rw [snd_decodeWords]
  split <;> rfl

theorem warningsOf_completion (words : List Word) (e : Except Failure Unit) :
    warningsOf (completion words e) = [] := by
  cases e <;> rfl

/-- What is reported before the first line is no warning. -/
theorem warningsOf_begun (config : Config) (machine : Machine) (sink : Sink) (words : List Word) :
    warningsOf (begun config machine sink words).events.toList = [] := by
  dsimp only [begun]
  rw [warningsOf_append, warningsOf_decodeWords, warningsOf_rejections, List.append_nil]

/-- On a sink that never fails, all warnings come from the actions. -/
theorem warnings_run_of_neverFails (config : Config) (machine : Machine) {sink : Sink}
    (h : sink.NeverFails) {words : List Word} (haddr : AddressesFit config words.length) :
    (run config machine sink words).warnings =
      warningsOf (reported (wordActions config words)) := by
  rw [run_of_neverFails config machine h haddr, Outcome.warnings]
  dsimp only
  rw [warningsOf_append, warningsOf_append, warningsOf_begun, warningsOf_completion,
    List.append_nil, List.nil_append]

/-- A listing fails only if its actions do. -/
theorem eq_error_of_resultOf {words : List Word} {e : Except Failure Unit} {failure : Failure}
    (h : resultOf words e = .error failure) : e = .error failure := by
  rcases e with f | u
  · exact congrArg Except.error (Except.error.inj h)
  · exact nomatch h

section

variable {config : Config} (machine : Machine) (sink : Sink) {words : List Word}

/-- A listing whose addresses are in order writes and warns a first part of what its actions do, and
does not fail for its addresses. -/
theorem run_isPrefix (haddr : AddressesFit config words.length) :
    (run config machine sink words).written <+: lineBytes (wordActions config words) ∧
    (run config machine sink words).warnings <+:
      warningsOf (reported (wordActions config words)) ∧
    ∀ base count,
      (run config machine sink words).result ≠ .error (.invalidAddressRange base count) := by
  obtain ⟨hwritten, hevents, hfailure⟩ :=
    perform_isPrefix (begun config machine sink words) (wordActions config words)
  rw [run_eq config machine sink haddr]
  refine ⟨hwritten, ?_, fun base count h => ?_⟩
  · have hpart := hevents.filter fun e => decide (e.level = .warn)
    rw [← warningsOf, ← warningsOf, warningsOf_append, warningsOf_begun,
      List.nil_append] at hpart
    rw [Outcome.warnings]
    dsimp only
    rw [warningsOf_append, warningsOf_completion, List.append_nil]
    exact hpart
  · exact hfailure base count (eq_error_of_resultOf h)

end

end Listing

end RiscvListing
