import RiscvListing.Proofs.Writing

/-!
# Decoding in parallel

A long list of words may be decoded by several decoders at once. They cut it where they like and
take turns as they like; what the listing shows does not depend on it.

* `Work`: words that are being decoded, in pieces, and `Work.Step`: one decoder takes its next word,
  or a piece is cut in two. A step is labelled with the events it reports.
* `Work.Run`: any number of steps, of any decoders in any order.
* `Work.expected`: the results of the pieces in the order of the words, once all are decoded. A step
  leaves it as it is (`Work.Step.expected_eq`), so every run that finishes has decoded the words in
  order (`Work.Run.results_eq`). A run reports nothing but rejected words, which are no warnings
  (`Work.Run.warningsOf_eq_nil`).
* `Listing.MayComeTo`: the outcomes that a listing may have, over all ways of decoding. The listing
  of a machine, by any of its plans, is one of them (`Listing.mayComeTo_run`).
* **The way of decoding does not show** (`Listing.parallel_indistinguishable`).
* All this is about machines, on which every pool of decoders can be built. A host differs from the
  machine that it would be (`Host.machine`) only where it needs a pool that it cannot build
  (`Listing.run_machine`), and then nothing is listed (`Listing.run_of_poolError`).
-/

namespace RiscvListing

/-! ## Decoders at work -/

/-- Words that are being decoded, in pieces. -/
inductive Work where
  /-- A piece with a decoder of its own: its results so far and the words that are left. -/
  | piece (results : List (Except Rejection Instruction)) (words : List Word)
  /-- A piece that was cut in two. -/
  | fork (left right : Work)

namespace Work

open Listing (rejections)

/-- The results so far, in the order of the words. -/
def results : Work → List (Except Rejection Instruction)
  | .piece results _ => results
  | .fork left right => left.results ++ right.results

/-- Whether no words are left. -/
def Finished : Work → Prop
  | .piece _ words => words = []
  | .fork left right => left.Finished ∧ right.Finished

/-- One step, with the events that it reports. -/
inductive Step : Work → List Event → Work → Prop where
  /-- A decoder takes its next word. -/
  | next (results : List (Except Rejection Instruction)) (w : Word) (words : List Word) :
    Step (.piece results (w :: words)) (rejections [decode w])
      (.piece (results ++ [decode w]) words)
  /-- A piece is cut at any place. -/
  | cut (results : List (Except Rejection Instruction)) (words : List Word) (index : Nat) :
    Step (.piece results words) []
      (.fork (.piece results (words.take index)) (.piece [] (words.drop index)))
  /-- Something happens in the left part. -/
  | left {a a' : Work} {events : List Event} (b : Work) :
    Step a events a' → Step (.fork a b) events (.fork a' b)
  /-- Something happens in the right part. -/
  | right {b b' : Work} {events : List Event} (a : Work) :
    Step b events b' → Step (.fork a b) events (.fork a b')

/-- Any number of steps, with the events that they report. -/
inductive Run : Work → List Event → Work → Prop where
  | refl (a : Work) : Run a [] a
  | step {a b c : Work} {events more : List Event} :
    Step a events b → Run b more c → Run a (events ++ more) c

/-- The results once all words are decoded. -/
def expected : Work → List (Except Rejection Instruction)
  | .piece results words => results ++ words.map decode
  | .fork left right => left.expected ++ right.expected

theorem expected_eq_results {a : Work} (h : a.Finished) : a.expected = a.results := by
  induction a with
  | piece results words =>
      obtain rfl : words = [] := h
      exact List.append_nil results
  | fork left right ihl ihr => exact congrArg₂ _ (ihl h.1) (ihr h.2)

/-- A step does not change what is to be expected. -/
theorem Step.expected_eq {a b : Work} {events : List Event} (h : Step a events b) :
    b.expected = a.expected := by
  induction h with
  | next results w words => simp [expected]
  | cut results words index =>
      simp only [expected, List.nil_append]
      rw [List.append_assoc, ← List.map_append, List.take_append_drop]
  | left b _ ih => exact congrArg (· ++ b.expected) ih
  | right a _ ih => exact congrArg (a.expected ++ ·) ih

/-- A run does not change what is to be expected. -/
theorem Run.expected_eq {a b : Work} {events : List Event} (h : Run a events b) :
    b.expected = a.expected := by
  induction h with
  | refl => rfl
  | step hstep _ ih => exact ih.trans hstep.expected_eq

/-- **Whatever the decoders do, the results are those of the words in order.** -/
theorem Run.results_eq {words : List Word} {a : Work} {events : List Event}
    (h : Run (.piece [] words) events a) (hfin : a.Finished) : a.results = words.map decode := by
  rw [← expected_eq_results hfin, h.expected_eq]
  rfl

/-- A step reports rejected words only. -/
theorem Step.exists_rejections {a b : Work} {events : List Event} (h : Step a events b) :
    ∃ results, events = rejections results := by
  induction h with
  | next _ w _ => exact ⟨[decode w], rfl⟩
  | cut => exact ⟨[], rfl⟩
  | left _ _ ih => exact ih
  | right _ _ ih => exact ih

/-- Nothing that a run reports is a warning. -/
theorem Run.warningsOf_eq_nil {a b : Work} {events : List Event} (h : Run a events b) :
    Listing.warningsOf events = [] := by
  induction h with
  | refl => rfl
  | step hstep _ ih =>
      obtain ⟨results, rfl⟩ := hstep.exists_rejections
      rw [Listing.warningsOf_append, Listing.warningsOf_rejections, ih]
      rfl

/-! ## Plans are ways of decoding -/

theorem Run.trans {a b c : Work} {events more : List Event} (h : Run a events b)
    (h' : Run b more c) : Run a (events ++ more) c := by
  induction h with
  | refl => exact h'
  | step hstep _ ih =>
      rw [List.append_assoc]
      exact .step hstep (ih h')

theorem Run.left {a a' : Work} {events : List Event} (h : Run a events a') (b : Work) :
    Run (.fork a b) events (.fork a' b) := by
  induction h with
  | refl => exact .refl _
  | step hstep _ ih => exact .step (.left b hstep) ih

theorem Run.right {b b' : Work} {events : List Event} (h : Run b events b') (a : Work) :
    Run (.fork a b) events (.fork a b') := by
  induction h with
  | refl => exact .refl _
  | step hstep _ ih => exact .step (.right a hstep) ih

theorem rejections_append (xs ys : List (Except Rejection Instruction)) :
    rejections (xs ++ ys) = rejections xs ++ rejections ys := List.filterMap_append

/-- One decoder takes all words of its piece. -/
theorem run_piece (results : List (Except Rejection Instruction)) (words : List Word) :
    Run (.piece results words) (rejections (words.map decode))
      (.piece (results ++ words.map decode) []) := by
  induction words generalizing results with
  | nil =>
      rw [List.map_nil, List.append_nil]
      exact .refl _
  | cons w words ih =>
      have hrest := ih (results ++ [decode w])
      have hevents := rejections_append [decode w] (words.map decode)
      rw [List.append_assoc] at hrest
      rw [List.singleton_append] at hrest hevents
      rw [List.map_cons, hevents]
      exact .step (.next results w words) hrest

/-- Following a plan from left to right is one way of decoding. -/
theorem exists_run_of_plan (plan : Plan) (words : List Word) :
    ∃ a, Run (.piece [] words) (rejections (words.map decode)) a ∧ a.Finished := by
  induction plan generalizing words with
  | whole => exact ⟨_, run_piece [] words, rfl⟩
  | cut index left right ihl ihr =>
      obtain ⟨a, ha, hfina⟩ := ihl (words.take index)
      obtain ⟨b, hb, hfinb⟩ := ihr (words.drop index)
      have hrun := (ha.left (.piece [] (words.drop index))).trans (hb.right a)
      rw [← rejections_append, ← List.map_append, List.take_append_drop] at hrun
      exact ⟨.fork a b, .step (.cut [] words index) hrun, hfina, hfinb⟩

end Work

namespace Listing

/-! ## Events before a listing -/

/-- The same progress with events before its own. -/
def Progress.precededBy (p : Progress) (before : Array Event) : Progress :=
  { p with events := before ++ p.events }

theorem Progress.report_precededBy (p : Progress) (before : Array Event) (event : Option Event) :
    (p.precededBy before).report event = (p.report event).precededBy before := by
  cases event with
  | none => rfl
  | some e => simp [Progress.report, Progress.precededBy]

theorem Progress.flush_precededBy (p : Progress) (before : Array Event) :
    (p.precededBy before).flush = (p.flush.1, p.flush.2.precededBy before) := rfl

theorem Progress.write_precededBy (p : Progress) (before : Array Event) (line : String) :
    (p.precededBy before).write line =
      ((p.write line).1, (p.write line).2.precededBy before) := rfl

/-- The events before a listing have no influence on it. -/
theorem perform_precededBy (p : Progress) (before : Array Event) (actions : List Action) :
    perform (p.precededBy before) actions =
      ((perform p actions).1, (perform p actions).2.precededBy before) := by
  induction actions generalizing p with
  | nil =>
      unfold perform
      rw [Progress.flush_precededBy]
      cases p.flush with
      | mk result q => cases result <;> rfl
  | cons action rest ih =>
      cases action with
      | stop rejection =>
          unfold perform
          rw [Progress.flush_precededBy]
          cases p.flush with
          | mk result q => cases result <;> rfl
      | leaveOut event =>
          unfold perform
          rw [Progress.report_precededBy]
          exact ih (p.report (some event))
      | write event line =>
          unfold perform
          rw [Progress.report_precededBy, Progress.write_precededBy]
          cases (p.report event).write line with
          | mk result q =>
              cases result with
              | ok u => exact ih q
              | error e => rfl

/-! ## The outcomes of a listing -/

/-- The outcomes that a listing may have on a machine with so many processors, over all ways of
decoding the words. -/
inductive MayComeTo (config : Config) (processors : Nat) (sink : Sink) (words : List Word) :
    Outcome → Prop where
  /-- Addresses that do not fit are refused. -/
  | refused (haddr : ¬ AddressesFit config words.length) :
    MayComeTo config processors sink words
      (.failed (.invalidAddressRange config.base words.length) sink)
  /-- One decoder, or few words: they are decoded in order. -/
  | sequential (haddr : AddressesFit config words.length)
    (hfew : config.effectiveJobs processors ≤ 1 ∨ words.length < parallelThreshold) :
    MayComeTo config processors sink words
      (listDecoded config sink words (words.map decode) (rejections (words.map decode)))
  /-- Several decoders and many words: any run of the decoders. -/
  | parallel (haddr : AddressesFit config words.length)
    (hmany : ¬ (config.effectiveJobs processors ≤ 1 ∨ words.length < parallelThreshold))
    {a : Work} {events : List Event} (hrun : Work.Run (.piece [] words) events a)
    (hfin : a.Finished) :
    MayComeTo config processors sink words
      (listDecoded config sink words a.results
        (.decodingInParallel (config.effectiveJobs processors) words.length :: events))

/-- The events of decoding come first and change nothing else. -/
theorem listDecoded_eq (config : Config) (sink : Sink) (words : List Word)
    (results : List (Except Rejection Instruction)) (events : List Event) :
    listDecoded config sink words results events =
      { listDecoded config sink words results [] with
        events := events ++ (listDecoded config sink words results []).events } := by
  have hbegun : ({ sink := sink, events := events.toArray } : Progress) =
      Progress.precededBy { sink := sink } events.toArray := by
    simp [Progress.precededBy]
  unfold listDecoded
  rw [hbegun, perform_precededBy]
  rcases perform { sink := sink } (actions config words results) with ⟨e | u, q⟩
  · simp [Progress.precededBy]
  · simp [Progress.precededBy]

/-- A listing by a plan of the machine is one of the outcomes. -/
theorem mayComeTo_run (config : Config) (machine : Machine) (sink : Sink) (words : List Word) :
    MayComeTo config machine.processors sink words (run config machine sink words) := by
  by_cases haddr : AddressesFit config words.length
  · rw [run_eq_listDecoded config machine sink haddr]
    by_cases hfew : config.effectiveJobs machine.processors ≤ 1 ∨ words.length < parallelThreshold
    · rw [snd_decodeWords, if_pos hfew]
      exact .sequential haddr hfew
    · obtain ⟨a, ha, hfin⟩ := Work.exists_run_of_plan
        (machine.plan (config.effectiveJobs machine.processors) words.length) words
      have hpar : MayComeTo config machine.processors sink words _ :=
        .parallel haddr hfew ha hfin
      rw [ha.results_eq hfin] at hpar
      rw [snd_decodeWords, if_neg hfew]
      exact hpar
  · rw [run_eq_failed config machine sink haddr]
    exact .refused haddr

/-- Every outcome is that of decoding in order, but for events that are no warnings. -/
theorem MayComeTo.eq_listDecoded {config : Config} {processors : Nat} {sink : Sink}
    {words : List Word} {o : Outcome} (h : MayComeTo config processors sink words o)
    (haddr : AddressesFit config words.length) :
    ∃ events, warningsOf events = [] ∧
      o = { listDecoded config sink words (words.map decode) [] with
        events := events ++ (listDecoded config sink words (words.map decode) []).events } := by
  cases h with
  | refused hnot => exact absurd haddr hnot
  | sequential _ _ =>
      exact ⟨_, warningsOf_rejections _, listDecoded_eq config sink words _ _⟩
  | parallel _ _ hrun hfin =>
      rw [hrun.results_eq hfin]
      refine ⟨_, ?_, listDecoded_eq config sink words _ _⟩
      exact hrun.warningsOf_eq_nil

/-- **The way of decoding does not show**: the listing of a machine by any of its plans, and more
generally any run of the decoders, with any number of them on any number of processors, comes to the
same bytes, result, flushes and warnings, on every sink. -/
theorem parallel_indistinguishable (config : Config) (sink : Sink) (words : List Word) :
    (∀ machine : Machine,
      MayComeTo config machine.processors sink words (run config machine sink words)) ∧
    ∀ (jobs₁ jobs₂ processors₁ processors₂ : Nat) (o₁ o₂ : Outcome),
      MayComeTo { config with jobs := jobs₁ } processors₁ sink words o₁ →
      MayComeTo { config with jobs := jobs₂ } processors₂ sink words o₂ →
        o₁.written = o₂.written ∧ o₁.result = o₂.result ∧ o₁.flushes = o₂.flushes ∧
          o₁.warnings = o₂.warnings ∧ o₁.sink = o₂.sink := by
  refine ⟨fun machine => mayComeTo_run config machine sink words, ?_⟩
  intro jobs₁ jobs₂ processors₁ processors₂ o₁ o₂ h₁ h₂
  by_cases haddr : AddressesFit config words.length
  · obtain ⟨events₁, hwarn₁, ho₁⟩ := h₁.eq_listDecoded haddr
    obtain ⟨events₂, hwarn₂, ho₂⟩ := h₂.eq_listDecoded haddr
    -- the number of decoders is the only difference between the two, and lines do not depend on it
    have hsame : listDecoded { config with jobs := jobs₁ } sink words (words.map decode) [] =
        listDecoded { config with jobs := jobs₂ } sink words (words.map decode) [] := rfl
    rw [hsame] at ho₁
    subst ho₁ ho₂
    refine ⟨rfl, rfl, rfl, ?_, rfl⟩
    rw [Outcome.warnings, Outcome.warnings, warningsOf_append, warningsOf_append, hwarn₁, hwarn₂]
  · have hfailed : ∀ {jobs processors : Nat} {o : Outcome},
        MayComeTo { config with jobs := jobs } processors sink words o →
          o = .failed (.invalidAddressRange config.base words.length) sink := by
      intro jobs processors o h
      cases h with
      | refused => rfl
      | sequential hfit => exact absurd hfit haddr
      | parallel hfit => exact absurd hfit haddr
    rw [hfailed h₁, hfailed h₂]
    exact ⟨rfl, rfl, rfl, rfl, rfl⟩

/-- A rejected word and 4095 traps are listed by one decoder and by four that cut the list at its
thousandth word. The listing starts with the message about the first word. -/
theorem parallel_indistinguishable_4096 :
    let words : List Word := 0x0000007F :: List.replicate 4095 0x00000073
    let machine : Machine := { processors := 2, plan := fun _ _ => .cut 1000 .whole .whole }
    let one := run { jobs := 1 } machine {} words
    let four := run { jobs := 4 } machine {} words
    let marked := "Invalid Instruction: 0x0000007f (opcode 0x7f, unmatched opcode)\n"
    (decodeWords { jobs := 4 } machine words).2 = [.decodingInParallel 4 4096] ∧
    Utf8.encode marked.toList <+: one.written ∧
    one.written = four.written ∧ one.result = four.result ∧ one.flushes = four.flushes ∧
      one.warnings = four.warnings := by
  intro words machine one four marked
  have hlength : words.length = 4096 := by
    rw [List.length_cons, List.length_replicate]
  have hcut : (decodeWords { jobs := 4 } machine words).2 = [.decodingInParallel 4 4096] := by
    rw [snd_decodeWords, if_neg (by rw [hlength]; decide), hlength]
    rfl
  have hmarked : Utf8.encode marked.toList <+: one.written := by
    rw [show one = _ from
      run_of_neverFails { jobs := 1 } machine Sink.neverFails_default (.inl rfl)]
    exact ⟨lineBytes ((wordActions { jobs := 1 } words).drop 1), rfl⟩
  have hone := (parallel_indistinguishable { jobs := 1 } {} words).1 machine
  have hfour := (parallel_indistinguishable { jobs := 4 } {} words).1 machine
  obtain ⟨hwritten, hresult, hflushes, hwarnings, -⟩ :=
    (parallel_indistinguishable {} {} words).2 1 4 2 2 one four hone hfour
  exact ⟨hcut, hmarked, hwritten, hresult, hflushes, hwarnings⟩

end Listing

/-! ## Pools that cannot be built -/

/-- The machine that a host would be if every pool could be built. -/
def Host.machine (host : Host) : Machine := { host with poolError := fun _ => none }

namespace Listing

variable {config : Config} {host : Host} (sink : Sink) {words : List Word}

/-- Where no pool is needed, or it can be built, a host does as a machine. -/
theorem run_machine (h : (config.effectiveJobs host.processors ≤ 1 ∨
      words.length < parallelThreshold) ∨
      host.poolError (config.effectiveJobs host.processors) = none) :
    run config host sink words = run config host.machine sink words := by
  have hdecode : decodeWords config host words = decodeWords config host.machine words := by
    unfold decodeWords
    dsimp only [Host.machine]
    split
    · rfl
    · rename_i hmany
      rw [h.resolve_left hmany]
  unfold run
  rw [hdecode]

/-- A pool that cannot be built ends the listing before the first line. -/
theorem run_of_poolError (haddr : AddressesFit config words.length)
    (hmany : ¬ (config.effectiveJobs host.processors ≤ 1 ∨ words.length < parallelThreshold))
    {text : String} (hpool : host.poolError (config.effectiveJobs host.processors) = some text) :
    run config host sink words =
      { Outcome.failed (.threadPool text) sink with
        events := [.decodingInParallel (config.effectiveJobs host.processors) words.length] } := by
  have hdecode : decodeWords config host words = (.error (.threadPool text),
      [.decodingInParallel (config.effectiveJobs host.processors) words.length]) := by
    unfold decodeWords
    dsimp only
    rw [if_neg hmany, hpool]
  unfold run
  rw [AddressesFit.check haddr, if_neg Bool.false_ne_true, hdecode]

end Listing

end RiscvListing
