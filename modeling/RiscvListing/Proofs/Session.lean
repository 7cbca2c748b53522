import RiscvListing.Session
import RiscvListing.Proofs.Writing

/-!
# Sessions on a sink with limits

A sink that is too small or cannot be flushed only ever cuts what the sources would have written.

* `Source.ideal`: the outcome of a source alone on a sink that takes everything and never fails.
* `Listing.Outcome.CutTo o ideal remaining flushFails`: `o` is what is left of `ideal` on a sink
  with room for `remaining` bytes.
* `Failure.PrecedesListing`: the failures that are found before the first line is written. Whatever
  keeps a source from being read is one of them (`Source.precedesListing_of_read`).
* **One source** (`Source.list_cut`): on any sink, a source comes to its ideal outcome, cut to the
  room, and leaves the room less by the bytes of the ideal outcome.
* **A session** (`session_cuts_ideal`): by induction over the sources, every outcome is the ideal
  one cut to the room that the ideal bytes before it leave, and the chunk has no influence.
-/

namespace RiscvListing

/-! ## Failures before the first line -/

/-- The failures of reading a source, of its addresses and of setting the decoders to work. -/
def Failure.PrecedesListing : Failure → Prop
  | .io _ | .truncatedInput _ | .invalidHexWord .. | .invalidAddressRange .. | .threadPool _ => True
  | .rejected _ | .formatting => False

/-- If a value cannot be worked on, it is because it could not be had. -/
theorem eq_error_of_bind_pure {α β ε : Type} {x : Except ε α} {g : α → β} {e : ε}
    (h : (x >>= fun a => pure (g a)) = .error e) : x = .error e := by
  rcases x with e' | a
  · exact congrArg Except.error (Except.error.inj h)
  · exact nomatch h

/-- If reading a list in order fails, it fails as one of its elements does. -/
theorem exists_of_mapM_eq_error {α β ε : Type} {f : α → Except ε β} {xs : List α} {e : ε}
    (h : xs.mapM f = .error e) : ∃ x ∈ xs, f x = .error e := by
  induction xs with
  | nil => simp [pure, Except.pure] at h
  | cons x xs ih =>
      rw [List.mapM_cons] at h
      rcases hx : f x with e' | y
      · rw [hx] at h
        obtain rfl := Except.error.inj h
        exact ⟨x, List.mem_cons_self, hx⟩
      · rw [hx] at h
        have hrest : (xs.mapM f >>= fun ys => pure (y :: ys)) = .error e := h
        obtain ⟨x', hx', hf⟩ := ih (eq_error_of_bind_pure hrest)
        exact ⟨x', List.mem_cons_of_mem _ hx', hf⟩

/-- A line that spells no word is reported as that. -/
theorem Program.precedesListing_of_lineWord {number : Nat} {line : List Char} {f : Failure}
    (h : Program.lineWord number line = .error f) : f.PrecedesListing := by
  unfold Program.lineWord at h
  dsimp only at h
  split at h
  · exact nomatch h
  · split at h
    · exact nomatch h
    · obtain rfl := Except.error.inj h
      trivial

/-- A buffer that cannot be read is too short or has a line that spells no word. -/
theorem Program.precedesListing_of_read {bytes : List UInt8} {format : InputFormat} {f : Failure}
    (h : Program.read bytes format = .error f) : f.PrecedesListing := by
  rcases format with _ | _
  · have hbin : Program.readBinary bytes = .error f := h
    unfold Program.readBinary at hbin
    split at hbin
    · exact nomatch hbin
    · obtain rfl := Except.error.inj hbin
      trivial
  · have hhex : Program.readHex bytes = .error f := h
    unfold Program.readHex at hhex
    obtain ⟨⟨line, number⟩, -, hline⟩ := exists_of_mapM_eq_error (eq_error_of_bind_pure hhex)
    exact Program.precedesListing_of_lineWord hline

/-- Whatever keeps a source from being read is found before the first line. -/
theorem Source.precedesListing_of_read {format : InputFormat} {source : Source} {f : Failure}
    (h : (source.read format).1 = .error f) : f.PrecedesListing := by
  rcases source with ws | bs | ⟨path, e | bs⟩
  · exact nomatch h
  · exact Program.precedesListing_of_read h
  · obtain rfl := Except.error.inj h
    trivial
  · exact Program.precedesListing_of_read h

/-! ## What a sink leaves of an outcome -/

/-- `o` is what `ideal` comes to on a sink with room for so many bytes. -/
structure Listing.Outcome.CutTo (o ideal : Listing.Outcome) (room : Option Nat)
    (flushFails : Bool) : Prop where
  /-- The first bytes are written, as many as there is room for. -/
  written : o.written =
    ideal.written.take (min (room.getD ideal.written.length) ideal.written.length)
  /-- If there is not room for all bytes, the full sink ends the listing and is not flushed. -/
  full : (∃ r ∈ room, r < ideal.written.length) →
    o.result = .error (.io .sinkFull) ∧ o.flushes = 0
  /-- A failure before the first line leaves the sink alone. -/
  early : (∀ r ∈ room, ideal.written.length ≤ r) →
    ∀ f, ideal.result = .error f → f.PrecedesListing →
      o.result = ideal.result ∧ o.flushes = 0 ∧ o.written = []
  /-- If there is room for all bytes, the sink is flushed once, and an error of that comes first. -/
  flushed : (∀ r ∈ room, ideal.written.length ≤ r) →
    (∀ f, ideal.result = .error f → ¬ f.PrecedesListing) →
      o.flushes = 1 ∧
        o.result = if flushFails then .error (.io .flushFailed) else ideal.result

namespace Listing

/-- A failure before the first line is the same on every sink. -/
theorem Outcome.cutTo_of_failed {o ideal : Outcome} {f : Failure} (hf : f.PrecedesListing)
    (ho : o.result = .error f ∧ o.written = [] ∧ o.flushes = 0)
    (hideal : ideal.result = .error f ∧ ideal.written = []) (room : Option Nat)
    (flushFails : Bool) : o.CutTo ideal room flushFails := by
  obtain ⟨hres, hwritten, hflushes⟩ := ho
  obtain ⟨hires, hiwritten⟩ := hideal
  refine ⟨by simp [hwritten, hiwritten], ?_, ?_, ?_⟩
  · rintro ⟨r, -, hlt⟩
    simp [hiwritten] at hlt
  · intro _ f' hf' _
    exact ⟨hres.trans hires.symm, hflushes, hwritten⟩
  · intro _ hnot
    exact absurd hf (hnot f hires)

/-- Actions end well or at a rejected word. -/
theorem exists_rejected_of_ending {actions : List Action} {f : Failure}
    (h : ending actions = .error f) : ∃ rejection, f = .rejected rejection := by
  induction actions with
  | nil => exact nomatch h
  | cons action rest ih =>
      rcases action with ⟨event, line⟩ | event | rejection
      · exact ih h
      · exact ih h
      · exact ⟨rejection, (Except.error.inj h).symm⟩

/-- No listing that was begun fails before its first line. -/
theorem not_precedesListing_of_ending {words : List Word} {actions : List Action} {f : Failure}
    (h : resultOf words (ending actions) = .error f) : ¬ f.PrecedesListing := by
  unfold resultOf at h
  rcases hend : ending actions with e | u
  · obtain ⟨rejection, rfl⟩ := exists_rejected_of_ending hend
    rw [hend] at h
    obtain rfl := Except.error.inj h
    exact id
  · rw [hend] at h
    exact nomatch h

/-- A listing on a sink without limits writes all lines and ends as its actions do. -/
theorem run_unlimited (config : Config) (machine : Machine) (words : List Word)
    (haddr : AddressesFit config words.length) :
    (run config machine {} words).written = lineBytes (wordActions config words) ∧
      (run config machine {} words).result =
        resultOf words (ending (wordActions config words)) := by
  rw [run_of_neverFails config machine Sink.neverFails_default haddr]
  exact ⟨rfl, rfl⟩

/-- **Words on a sink**: the listing comes to the one on a sink without limits, cut to the room. -/
theorem run_cutTo (config : Config) (machine : Machine) {sink : Sink} (h : sink.Advances)
    (words : List Word) :
    (run config machine sink words).CutTo (run config machine {} words) sink.room sink.flushFails ∧
      (run config machine sink words).sink =
        sink.taking (run config machine {} words).written.length := by
  by_cases haddr : AddressesFit config words.length
  · obtain ⟨hiwritten, hires⟩ := run_unlimited config machine words haddr
    have hadv : (begun config machine sink words).sink.Advances := h
    obtain ⟨hwritten, hsink, hfull, hfits⟩ := perform_spec hadv (wordActions config words)
    rw [run_eq config machine sink haddr]
    refine ⟨⟨?_, ?_, ?_, ?_⟩, ?_⟩ <;> simp only [hiwritten, hires]
    · rw [Nat.min_comm]
      exact hwritten
    · intro hexc
      have hlt := (Sink.takes_lt_iff sink _).mpr hexc
      obtain ⟨hres, hfl⟩ := hfull hlt
      rw [hres]
      exact ⟨rfl, hfl⟩
    · intro _ f hf hprec
      exact absurd hprec (not_precedesListing_of_ending hf)
    · intro hle _
      have heq := (Sink.takes_eq_iff sink _).mpr hle
      obtain ⟨hres, hfl, -⟩ := hfits heq
      refine ⟨hfl, ?_⟩
      rw [hres]
      show resultOf words (if sink.flushFails then _ else _) = _
      split <;> rfl
    · exact hsink
  · rw [run_eq_failed config machine sink haddr, run_eq_failed config machine {} haddr]
    refine ⟨Outcome.cutTo_of_failed (f := .invalidAddressRange config.base words.length) trivial
      ⟨rfl, rfl, rfl⟩ ⟨rfl, rfl⟩ _ _, ?_⟩
    exact (Sink.taking_zero sink).symm

end Listing

/-! ## One source -/

/-- What comes of a source alone on a sink that takes everything and never fails. -/
def Source.ideal (config : Config) (machine : Machine) (source : Source) : Listing.Outcome :=
  source.list config machine {}

/-- **One source**: it comes to its ideal outcome, cut to the room, and leaves the room less by the
bytes of the ideal outcome. -/
theorem Source.list_cut (config : Config) (machine : Machine) {sink : Sink} (h : sink.Advances)
    (source : Source) :
    (source.list config machine sink).CutTo (source.ideal config machine) sink.room
        sink.flushFails ∧
      (source.list config machine sink).sink =
        sink.taking (source.ideal config machine).written.length := by
  unfold Source.ideal Source.list
  rcases hread : source.read config.inputFormat with ⟨f | ws, events⟩
  · have hf : f.PrecedesListing := Source.precedesListing_of_read (congrArg Prod.fst hread)
    refine ⟨Listing.Outcome.cutTo_of_failed hf ⟨rfl, rfl, rfl⟩ ⟨rfl, rfl⟩ _ _, ?_⟩
    exact (Sink.taking_zero sink).symm
  · obtain ⟨⟨hwritten, hfull, hearly, hflushed⟩, hsink⟩ := Listing.run_cutTo config machine h ws
    exact ⟨⟨hwritten, hfull, hearly, hflushed⟩, hsink⟩

/-- The same outcome on a sink that takes another number of bytes at once. -/
def Listing.Outcome.setChunk (o : Listing.Outcome) (chunk : Option Nat) : Listing.Outcome :=
  { o with sink := { o.sink with chunk := chunk } }

/-- The chunk has no influence on the listing of words. -/
theorem Listing.run_setChunk (config : Config) (machine : Machine) {sink : Sink}
    (h : sink.Advances) {chunk : Option Nat} (hc : chunk ≠ some 0) (words : List Word) :
    Listing.run config machine { sink with chunk := chunk } words =
      (Listing.run config machine sink words).setChunk chunk := by
  by_cases haddr : AddressesFit config words.length
  · have hadv : (begun config machine sink words).sink.Advances := h
    have hperf := perform_setChunk hadv hc (wordActions config words)
    rw [run_eq config machine _ haddr, run_eq config machine sink haddr]
    have hbegun : begun config machine { sink with chunk := chunk } words =
        (begun config machine sink words).setChunk chunk := rfl
    rw [hbegun, hperf]
    rfl
  · rw [run_eq_failed config machine _ haddr, run_eq_failed config machine sink haddr]
    rfl

/-- The chunk has no influence on the listing of a source. -/
theorem Source.list_setChunk (config : Config) (machine : Machine) {sink : Sink}
    (h : sink.Advances) {chunk : Option Nat} (hc : chunk ≠ some 0) (source : Source) :
    source.list config machine { sink with chunk := chunk } =
      (source.list config machine sink).setChunk chunk := by
  unfold Source.list
  rcases source.read config.inputFormat with ⟨f | ws, events⟩
  · rfl
  · dsimp only
    rw [Listing.run_setChunk config machine h hc]
    rfl

/-! ## Sessions -/

namespace Session

/-- How many bytes the sources write in all where nothing goes wrong. -/
def idealLength (config : Config) (machine : Machine) (sources : List Source) : Nat :=
  (sources.map fun source => (source.ideal config machine).written.length).sum

/-- Every source has an outcome. -/
theorem length_run (config : Config) (machine : Machine) (sink : Sink) (sources : List Source) :
    (run config machine sink sources).length = sources.length := by
  induction sources generalizing sink with
  | nil => rfl
  | cons source rest ih => simp [run, ih]

/-- Every source comes to its ideal outcome, cut to the room that the sources before it leave. -/
theorem cutTo_of_getElem? (config : Config) (machine : Machine) {sink : Sink} (h : sink.Advances)
    {sources : List Source} {i : Nat} {source : Source} {o : Listing.Outcome}
    (hsource : sources[i]? = some source) (ho : (run config machine sink sources)[i]? = some o) :
    o.CutTo (source.ideal config machine)
      (sink.taking (idealLength config machine (sources.take i))).room sink.flushFails := by
  induction sources generalizing sink i with
  | nil => simp at hsource
  | cons first rest ih =>
      obtain ⟨hcut, hsink⟩ := Source.list_cut config machine h first
      rcases i with _ | i
      · obtain rfl : first = source := by simpa using hsource
        obtain rfl : first.list config machine sink = o := by simpa [run] using ho
        simpa [idealLength] using hcut
      · have hrest :
            (run config machine (first.list config machine sink).sink rest)[i]? = some o := by
          simpa [run] using ho
        rw [hsink] at hrest
        have hlater := ih (h.taking _) (by simpa using hsource) hrest
        rw [Sink.taking_taking] at hlater
        simpa [idealLength] using hlater

/-- The chunk has no influence on a session. -/
theorem run_setChunk (config : Config) (machine : Machine) {sink : Sink} (h : sink.Advances)
    {chunk : Option Nat} (hc : chunk ≠ some 0) (sources : List Source) :
    run config machine { sink with chunk := chunk } sources =
      (run config machine sink sources).map (·.setChunk chunk) := by
  induction sources generalizing sink with
  | nil => rfl
  | cons source rest ih =>
      have hadv : (source.list config machine sink).sink.Advances := by
        rw [(Source.list_cut config machine h source).2]
        exact h.taking _
      simp only [run, Source.list_setChunk config machine h hc, List.map_cons]
      exact congrArg _ (ih hadv)

end Session

/-- **A sink with limits only ever cuts a session**: every source comes to its ideal outcome, cut to
what is left of the room after the ideal bytes of the sources before it, with the error of the full
sink and of the failed flush in their order; and the chunk has no influence on any outcome. -/
theorem session_cuts_ideal (config : Config) (machine : Machine) {sink : Sink}
    (h : sink.Advances) (sources : List Source) :
    (Session.run config machine sink sources).length = sources.length ∧
    (∀ (i : Nat) (source : Source) (o : Listing.Outcome), sources[i]? = some source →
      (Session.run config machine sink sources)[i]? = some o →
        o.CutTo (source.ideal config machine)
          (sink.room.map fun c =>
            c - min c (Session.idealLength config machine (sources.take i)))
          sink.flushFails) ∧
    (∀ chunk : Option Nat, chunk ≠ some 0 →
      Session.run config machine { sink with chunk := chunk } sources =
        (Session.run config machine sink sources).map (·.setChunk chunk)) ∧
    IoError.sinkFull.text = "failed to write whole buffer" ∧
    IoError.flushFailed.text = "flush failed" := by
  refine ⟨Session.length_run config machine sink sources, ?_,
    fun chunk hc => Session.run_setChunk config machine h hc sources, rfl, rfl⟩
  intro i source o hsource ho
  have hcut := Session.cutTo_of_getElem? config machine h hsource ho
  have hroom : (fun c => c - min c (Session.idealLength config machine (sources.take i))) =
      (· - Session.idealLength config machine (sources.take i)) := by
    funext c
    omega
  rw [hroom]
  exact hcut

/-- A sink with room for twenty bytes takes all of a line of fifteen bytes and five of the same line
after it; the buffer between them, which is too short for a word, leaves the room as it is. -/
theorem session_cuts_second_line :
    let machine : Machine := { processors := 2 }
    let sink : Sink := { room := some 20, chunk := some 3, flushFails := true }
    let sources : List Source := [.words [0x00000013], .bytes [0x13, 0, 0], .words [0x00000013]]
    sink.Advances ∧
    ∀ o, (Session.run {} machine sink sources)[2]? = some o →
      o.written = Utf8.encode "addi\t".toList ∧ o.result = .error (.io .sinkFull) ∧
        o.flushes = 0 := by
  intro machine sink sources
  have hadv : sink.Advances := by decide
  refine ⟨hadv, fun o ho => ?_⟩
  have hrun := (Listing.run_unlimited {} machine [0x00000013] (.inl rfl)).1
  have hline : (Source.ideal {} machine (.words [0x00000013])).written =
      Utf8.encode "addi\tx0, x0, 0\n".toList := hrun.trans (by decide)
  have hbytes : (Source.ideal {} machine (.bytes [0x13, 0, 0])).written = [] := rfl
  have hused : Session.idealLength {} machine (sources.take 2) = 15 := by
    simp only [Session.idealLength, sources, List.take_succ_cons, List.take_zero, List.map_cons,
      List.map_nil, hline, hbytes]
    decide
  obtain ⟨hwritten, hfull, -, -⟩ := (session_cuts_ideal {} machine hadv sources).2.1 2 _ o rfl ho
  rw [hused, hline] at hwritten hfull
  obtain ⟨hres, hflushes⟩ := hfull ⟨5, rfl, by decide⟩
  exact ⟨hwritten, hres, hflushes⟩

end RiscvListing
