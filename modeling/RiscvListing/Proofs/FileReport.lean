import RiscvListing.Command
import RiscvListing.Proofs.Accepted
import RiscvListing.Proofs.WordLines

/-!
# What is reported about a file

The listing of a file either is complete or fails, and one line tells the user which.

* `Listable config contents words`: the contents can be read as words whose addresses are in order,
  and no word ends the listing. `listedLines` are the lines that the policy says.
* `Unlistable config contents failure printed`: what is in the way, with the bytes that are printed
  before it is met. Contents are one or the other (`listable_or_unlistable`).
* `Source.list_of_listable`, `Source.list_of_unlistable`: the listing of a file in the two cases.
* `Outcome.events`, `Outcome.statusLines`: the two kinds of notices, told apart. The lines for the
  user come last (`Outcome.errorText_eq`).
* `Listing.ofListing_of_mem_run`: a listing has its own kinds of events, and none is an error.
* **A file is reported in full** (`disasm_reports_file`): for every command line that is accepted,
  the exit code, the bytes printed and the line for the user.
-/

namespace RiscvListing

open Listing (AddressesExact AddressesFit bytesOf indexedLine)

/-! ## Files that can be listed -/

/-- The contents are words that can all be listed. -/
structure Listable (config : Config) (contents : Except IoError (List UInt8))
    (words : List Word) : Prop where
  /-- The file can be read, and its bytes are words. -/
  reads : ∃ bytes, contents = .ok bytes ∧ Program.read bytes config.inputFormat = .ok words
  /-- The addresses fit, if they are shown. -/
  addresses : AddressesExact config words.length
  /-- No word ends the listing. -/
  decodes : config.onInvalid = .abort → ∀ w ∈ words, Word.decodes w = true

/-- What keeps the contents from being listed in full, and the bytes printed before it is met. -/
inductive Unlistable (config : Config) (contents : Except IoError (List UInt8)) :
    Failure → List UInt8 → Prop where
  /-- The file cannot be read. -/
  | unreadable {e : IoError} (h : contents = .error e) : Unlistable config contents (.io e) []
  /-- The bytes are not words. -/
  | malformed {bytes : List UInt8} {failure : Failure} (h : contents = .ok bytes)
    (hread : Program.read bytes config.inputFormat = .error failure) :
    Unlistable config contents failure []
  /-- An address that is to be shown does not fit. -/
  | outOfRange {bytes : List UInt8} {words : List Word} (h : contents = .ok bytes)
    (hread : Program.read bytes config.inputFormat = .ok words)
    (haddr : ¬ AddressesExact config words.length) :
    Unlistable config contents (.invalidAddressRange config.base words.length) []
  /-- A rejected word ends the listing after the lines of the words before it. -/
  | rejected {bytes : List UInt8} {before after : List Word} {w : Word} {r : Rejection}
    (h : contents = .ok bytes)
    (hread : Program.read bytes config.inputFormat = .ok (before ++ w :: after))
    (haddr : AddressesExact config (before ++ w :: after).length)
    (habort : config.onInvalid = .abort) (hbefore : ∀ v ∈ before, Word.decodes v = true)
    (hr : decode w = .error r) :
    Unlistable config contents (.rejected r) (bytesOf (before.zipIdx.map (indexedLine config)))

/-- Contents that cannot be listed in full have something in the way. -/
theorem listable_or_unlistable (config : Config) (contents : Except IoError (List UInt8)) :
    (∃ words, Listable config contents words) ∨
      ∃ failure printed, Unlistable config contents failure printed := by
  -- the cases are split in the order in which the listing meets what is in the way
  rcases contents with e | bytes
  · exact .inr ⟨_, _, .unreadable rfl⟩
  rcases hread : Program.read bytes config.inputFormat with failure | words
  · exact .inr ⟨_, _, .malformed rfl hread⟩
  by_cases haddr : AddressesExact config words.length
  · by_cases hd : config.onInvalid = .abort → ∀ w ∈ words, Word.decodes w = true
    · exact .inl ⟨words, ⟨bytes, rfl, hread⟩, haddr, hd⟩
    · obtain ⟨habort, hnot⟩ := Classical.not_imp.mp hd
      obtain ⟨before, w, after, r, rfl, hbefore, hr⟩ := Listing.exists_first_rejected hnot
      exact .inr ⟨_, _, .rejected rfl hread haddr habort hbefore hr⟩
  · exact .inr ⟨_, _, .outOfRange rfl hread haddr⟩

/-- The lines that the policy says, where no word ends the listing. -/
def listedLines (config : Config) (words : List Word) : List String :=
  (words.zipIdx.filter fun p => config.onInvalid ≠ .skip ∨ Word.decodes p.1 = true).map
    (indexedLine config)

/-- The counts of a list of words. -/
def counts (words : List Word) : Stats :=
  ⟨words.length, words.countP Word.decodes, words.countP fun w => !Word.decodes w⟩

theorem counts_eq (words : List Word) : Stats.ofResults (words.map decode) = counts words := by
  have hsum : words.countP Word.decodes + words.countP (fun w => !Word.decodes w) =
      words.length := by
    rw [List.length_eq_countP_add_countP Word.decodes]
    simp
  rw [Stats.ofResults_decode, counts, ← hsum, Nat.add_sub_cancel_left]

/-! ## The listing of a file -/

namespace Listing

/-- Where no word ends the listing, it has the lines that the policy says. -/
theorem lineBytes_eq_listedLines {config : Config} {words : List Word}
    (haddr : AddressesExact config words.length)
    (hd : config.onInvalid = .abort → ∀ w ∈ words, Word.decodes w = true) :
    lineBytes (wordActions config words) = bytesOf (listedLines config words) ∧
      ending (wordActions config words) = .ok () := by
  unfold listedLines
  by_cases habort : config.onInvalid = .abort
  · obtain ⟨hbytes, -, hending⟩ := lineBytes_of_decodes (hd habort) haddr
    simp [habort, hbytes, hending]
  · have hcontinues : ∀ p ∈ words.zipIdx, (wordAction config p).continues = true :=
      fun p _ => continues_wordAction habort p
    refine ⟨?_, (wordActions_spec hcontinues).2.2⟩
    by_cases hskip : config.onInvalid = .skip
    · simp [hskip, lineBytes_of_skip hskip haddr]
    · have hmark : config.onInvalid = .mark := by
        rcases hpolicy : config.onInvalid with _ | _ | _
        · exact absurd hpolicy habort
        · exact absurd hpolicy hskip
        · rfl
      simp [hmark, lineBytes_of_mark hmark haddr]

/-- What such a listing comes to. -/
theorem run_of_listed {config : Config} (machine : Machine) {words : List Word}
    (haddr : AddressesExact config words.length)
    (hd : config.onInvalid = .abort → ∀ w ∈ words, Word.decodes w = true) :
    (run config machine {} words).result = .ok (counts words) ∧
      (run config machine {} words).written = bytesOf (listedLines config words) := by
  obtain ⟨hbytes, hending⟩ := lineBytes_eq_listedLines haddr hd
  rw [run_of_neverFails config machine Sink.neverFails_default haddr.fit]
  refine ⟨?_, hbytes⟩
  rw [hending]
  exact congrArg Except.ok (counts_eq words)

end Listing

namespace Source

section

variable {config : Config} {contents : Except IoError (List UInt8)} (path : String)
  (machine : Machine)

/-- The words of a file are listed after the event about reading it. -/
theorem list_of_read {bytes : List UInt8} {words : List Word}
    (hread : Program.read bytes config.inputFormat = .ok words) :
    (Source.file path (.ok bytes)).list config machine {} =
      { Listing.run config machine {} words with
        events := .readInput path bytes.length config.inputFormat ::
          (Listing.run config machine {} words).events } := by
  simp only [Source.list, Source.read, hread]
  rfl

/-- A file that can be listed is listed by its words. -/
theorem list_of_listable {words : List Word} (h : Listable config contents words) :
    ((Source.file path contents).list config machine {}).result = .ok (counts words) ∧
      ((Source.file path contents).list config machine {}).written =
        bytesOf (listedLines config words) := by
  obtain ⟨⟨bytes, rfl, hread⟩, haddr, hd⟩ := h
  rw [list_of_read path machine hread]
  exact Listing.run_of_listed machine haddr hd

/-- A file that cannot be listed in full fails with what is in the way. -/
theorem list_of_unlistable {failure : Failure} {printed : List UInt8}
    (h : Unlistable config contents failure printed) :
    ((Source.file path contents).list config machine {}).result = .error failure ∧
      ((Source.file path contents).list config machine {}).written = printed := by
  cases h with
  | unreadable h =>
      subst h
      exact ⟨rfl, rfl⟩
  | malformed h hread =>
      subst h
      simp only [Source.list, Source.read, hread]
      exact ⟨rfl, rfl⟩
  | outOfRange h hread haddr =>
      subst h
      rw [list_of_read path machine hread,
        Listing.run_eq_failed config machine {} fun hfit => haddr hfit.exact]
      exact ⟨rfl, rfl⟩
  | rejected h hread haddr habort hbefore hr =>
      subst h
      obtain ⟨hbytes, -, hending⟩ := Listing.wordActions_of_abort habort haddr hbefore hr
      rw [list_of_read path machine hread,
        Listing.run_of_neverFails config machine Sink.neverFails_default haddr.fit]
      refine ⟨?_, hbytes⟩
      rw [hending]
      rfl

end

end Source

/-! ## Notices -/

/-- The events of an invocation, in order. -/
def Outcome.events (o : Outcome) : List Event := o.notices.filterMap Notice.event?

/-- The lines for the user, in order. -/
def Outcome.statusLines (o : Outcome) : List String :=
  (o.notices.filterMap Notice.status?).map Status.line

namespace Notice

theorem filterMap_event?_map (es : List Event) :
    (es.map Notice.event).filterMap event? = es := by
  rw [List.filterMap_map]
  exact List.filterMap_some

theorem filterMap_status?_map (es : List Event) :
    (es.map Notice.event).filterMap status? = [] := by
  rw [List.filterMap_map]
  exact List.filterMap_none es

theorem errorText_append (filter : LogFilter) (ns ms : List Notice) :
    errorText filter (ns ++ ms) = errorText filter ns ++ errorText filter ms := by
  unfold errorText
  rw [List.filterMap_append, List.map_append]
  simp

end Notice

section

variable {o : Outcome} {es : List Event} {silent : Bool} {status : Status}
  (h : o.notices = es.map .event ++ Report.statusNotices silent status)

include h

theorem Outcome.events_eq : o.events = es := by
  unfold Outcome.events
  rw [h, List.filterMap_append, Notice.filterMap_event?_map]
  cases silent <;> exact List.append_nil es

theorem Outcome.statusLines_eq : o.statusLines = if silent then [] else [status.line] := by
  unfold Outcome.statusLines
  rw [h, List.filterMap_append, Notice.filterMap_status?_map]
  cases silent <;> rfl

/-- The lines for the user come after those of the log. -/
theorem Outcome.errorText_eq (filter : LogFilter) :
    Notice.errorText filter o.notices =
      Notice.errorText filter (o.events.map .event) ++
        String.join (o.statusLines.map (· ++ "\n")) := by
  rw [Outcome.events_eq h, Outcome.statusLines_eq h, h, Notice.errorText_append]
  cases silent <;> rfl

end

namespace Report

variable (options : DisasmOptions) (silent : Bool) {outcome : Listing.Outcome}

theorem ofListing_of_ok {stats : Stats} (h : outcome.result = .ok stats) :
    ofListing options silent outcome =
      ⟨0, outcome.written,
        (.disassembling options.input options.config.inputFormat ::
          (outcome.events ++ [.done stats])).map .event ++
          statusNotices silent (.complete stats)⟩ := by
  simp only [ofListing, h]

theorem ofListing_of_error {failure : Failure} (h : outcome.result = .error failure) :
    ofListing options silent outcome =
      ⟨1, outcome.written,
        (.disassembling options.input options.config.inputFormat ::
          (outcome.events ++ [.disassemblyFailed failure])).map .event ++
          statusNotices silent (.failed failure)⟩ := by
  simp only [ofListing, h]

/-- Whether lines for the user are wanted has no influence on the rest of the report. -/
theorem exists_notices_ofListing (outcome : Listing.Outcome) :
    ∃ (es : List Event) (status : Status), ∀ silent,
      (ofListing options silent outcome).notices =
        es.map .event ++ statusNotices silent status := by
  rcases h : outcome.result with failure | stats
  · exact ⟨_, _, fun silent => by rw [ofListing_of_error options silent h]⟩
  · exact ⟨_, _, fun silent => by rw [ofListing_of_ok options silent h]⟩

end Report

/-! ## The events of a listing -/

/-- Whether an event is about a word of a listing, a word that was rejected. -/
def Event.concernsWord : Event → Bool
  | .skippingInvalid .. | .markingInvalid .. => true
  | _ => false

/-- Whether an event comes from a listing, and not from the command around it. -/
def Event.ofListing : Event → Bool
  | .decodingInParallel .. | .unsupportedEncoding .. | .listingComplete .. => true
  | e => e.concernsWord

/-- A listing does not report errors. -/
theorem Event.level_ne_error {e : Event} (h : e.ofListing = true) : e.level ≠ .error := by
  cases e <;> cases h <;> exact Level.noConfusion

/-- The warnings of a listing are about its words. -/
theorem Event.concernsWord_eq {e : Event} (h : e.ofListing = true) :
    e.concernsWord = decide (e.level = .warn) := by
  cases e <;> cases h <;> rfl

namespace Listing

/-- What actions report is reported by one of them. -/
theorem mem_events_of_mem_reported {acts : List Action} {e : Event} (h : e ∈ reported acts) :
    ∃ a ∈ acts, e ∈ a.events := by
  induction acts with
  | nil => exact absurd h List.not_mem_nil
  | cons a acts ih =>
      rcases a with ⟨event, line⟩ | event | rejection
      · rcases List.mem_append.mp h with he | hrest
        · exact ⟨_, List.mem_cons_self, he⟩
        · obtain ⟨b, hb, he⟩ := ih hrest
          exact ⟨b, List.mem_cons_of_mem _ hb, he⟩
      · rcases List.mem_cons.mp h with rfl | hrest
        · exact ⟨_, List.mem_cons_self, List.mem_cons_self⟩
        · obtain ⟨b, hb, he⟩ := ih hrest
          exact ⟨b, List.mem_cons_of_mem _ hb, he⟩
      · exact absurd h List.not_mem_nil

theorem ofListing_of_mem_wordAction {config : Config} {p : Word × Nat} {e : Event}
    (h : e ∈ (wordAction config p).events) : e.ofListing = true := by
  unfold wordAction action at h
  split at h
  · exact absurd h List.not_mem_nil
  · split at h
    · exact absurd h List.not_mem_nil
    · obtain rfl := List.mem_singleton.mp h
      rfl
    · obtain rfl := List.mem_singleton.mp h
      rfl

theorem ofListing_of_mem_begun {config : Config} {machine : Machine} {words : List Word}
    {e : Event} (h : e ∈ (begun config machine {} words).events.toList) :
    e.ofListing = true := by
  rcases List.mem_append.mp h with hcut | hrejected
  · rw [snd_decodeWords] at hcut
    split at hcut
    · exact absurd hcut List.not_mem_nil
    · obtain rfl := List.mem_singleton.mp hcut
      rfl
  · obtain ⟨result, -, hresult⟩ := List.mem_filterMap.mp hrejected
    rcases result with r | i
    · obtain rfl := Option.some.inj hresult
      rfl
    · exact nomatch hresult

/-- **The events of a listing**: before its lines, about its words, and at its end. -/
theorem ofListing_of_mem_run {config : Config} {machine : Machine} {words : List Word} {e : Event}
    (h : e ∈ (run config machine {} words).events) : e.ofListing = true := by
  by_cases haddr : AddressesFit config words.length
  · rw [run_of_neverFails config machine Sink.neverFails_default haddr] at h
    rcases List.mem_append.mp h with hlines | hlast
    · rcases List.mem_append.mp hlines with hbegun | hreported
      · exact ofListing_of_mem_begun hbegun
      · obtain ⟨a, ha, he⟩ := mem_events_of_mem_reported hreported
        rw [wordActions_eq_map] at ha
        obtain ⟨p, -, rfl⟩ := List.mem_map.mp ha
        exact ofListing_of_mem_wordAction he
    · unfold completion at hlast
      split at hlast
      · obtain rfl := List.mem_singleton.mp hlast
        rfl
      · exact absurd hlast List.not_mem_nil
  · rw [run_eq_failed config machine {} haddr] at h
    exact absurd h List.not_mem_nil

end Listing

/-- Neither the listing of a file nor reading it reports errors. -/
theorem Source.level_ne_error_of_mem_list (config : Config) (machine : Machine) (path : String)
    (contents : Except IoError (List UInt8)) {e : Event}
    (h : e ∈ ((Source.file path contents).list config machine {}).events) : e.level ≠ .error := by
  rcases contents with err | bytes
  · exact absurd h List.not_mem_nil
  rcases hread : Program.read bytes config.inputFormat with failure | words
  · simp only [Source.list, Source.read, hread] at h
    obtain rfl := List.mem_singleton.mp h
    exact Level.noConfusion
  · rw [Source.list_of_read path machine hread] at h
    rcases List.mem_cons.mp h with rfl | hrun
    · exact Level.noConfusion
    · exact Event.level_ne_error (Listing.ofListing_of_mem_run hrun)

/-- Where no lines for the user are wanted, the text is that of the log. -/
theorem Notice.errorText_of_silent (filter : LogFilter) (es : List Event) (status : Status) :
    Notice.errorText filter (es.map .event ++ Report.statusNotices true status) =
      Notice.errorText filter (es.map .event) := by
  rw [Notice.errorText_append]
  exact String.append_empty

/-- A log that shows errors only has no line for other events. -/
theorem Notice.errorText_of_level_ne {es : List Event} (h : ∀ e ∈ es, e.level ≠ .error) :
    Notice.errorText (some .error) (es.map .event) = "" := by
  have hhidden : (es.map Notice.event).filterMap (Notice.line? (some .error)) = [] := by
    rw [List.filterMap_map, List.filterMap_eq_nil_iff]
    intro e he
    refine if_neg ?_
    have hne := h e he
    revert hne
    cases e.level <;> decide
  unfold Notice.errorText
  rw [hhidden]
  rfl

/-- If all that is wrong is that the listing failed, the log has one line. -/
theorem Notice.errorText_of_failed {es : List Event} (h : ∀ e ∈ es, e.level ≠ .error)
    (failure : Failure) :
    Notice.errorText (some .error) ((es ++ [Event.disassemblyFailed failure]).map .event) =
      (Event.disassemblyFailed failure).logLine ++ "\n" := by
  have hline : Notice.line? (some .error) (.event (.disassemblyFailed failure)) =
      some (Event.disassemblyFailed failure).logLine := by
    have hshown : LogFilter.shows (some .error) (Event.disassemblyFailed failure).level = true :=
      rfl
    simp only [Notice.line?, hshown, if_true]
  rw [List.map_append, Notice.errorText_append, Notice.errorText_of_level_ne h]
  simp [Notice.errorText, hline]

/-! ## Whole invocations -/

/-- The line about words that have been listed. -/
def summaryLine (words : List Word) : String :=
  let invalid := words.countP fun w => !Word.decodes w
  (if invalid = 0 then "✓ " else "! ") ++ Numeral.natural words.length ++ " words, " ++
    Numeral.natural (words.countP Word.decodes) ++ " decoded, " ++ Numeral.natural invalid ++
    " invalid"

section

variable {choices : Usage.DisasmChoices} (machine : Machine) {directory : Directory}

/-- An invocation on a file that can be listed. -/
theorem run_of_listable {words : List Word}
    (h : Listable choices.config (directory.read choices.input) words) :
    let outcome := (choices.invocation none).run machine directory
    outcome.exitCode = 0 ∧ outcome.stdout = bytesOf (listedLines choices.config words) ∧
      outcome.statusLines = (if choices.silent then [] else [summaryLine words]) ∧
      (choices.silent = true → choices.verbose = false →
        Notice.errorText (LogFilter.choose none choices.verbose choices.silent) outcome.notices =
          "") := by
  intro outcome
  obtain ⟨hresult, hwritten⟩ := Source.list_of_listable choices.input machine h
  have hreport :=
    Report.ofListing_of_ok ⟨choices.input, none, choices.config⟩ choices.silent hresult
  have hnotices : outcome.notices = _ := congrArg Report.notices hreport
  refine ⟨congrArg Report.exitCode hreport, (congrArg Report.listing hreport).trans hwritten,
    Outcome.statusLines_eq hnotices, fun hsilent hverbose => ?_⟩
  rw [hsilent] at hnotices
  rw [hsilent, hverbose, hnotices, Notice.errorText_of_silent]
  have hdone : ∀ e ∈ [Event.done (counts words)], e.level ≠ .error :=
    List.forall_mem_singleton.mpr Level.noConfusion
  refine Notice.errorText_of_level_ne (List.forall_mem_cons.mpr ⟨Level.noConfusion, ?_⟩)
  refine List.forall_mem_append.mpr ⟨fun e he => ?_, hdone⟩
  exact Source.level_ne_error_of_mem_list _ machine _ _ he

/-- An invocation on a file that cannot be listed in full. -/
theorem run_of_unlistable {failure : Failure} {printed : List UInt8}
    (h : Unlistable choices.config (directory.read choices.input) failure printed) :
    let outcome := (choices.invocation none).run machine directory
    outcome.exitCode = 1 ∧ outcome.stdout = printed ∧
      outcome.statusLines = (if choices.silent then [] else ["✗ " ++ failure.message]) ∧
      (choices.silent = true → choices.verbose = false →
        Notice.errorText (LogFilter.choose none choices.verbose choices.silent) outcome.notices =
          (Event.disassemblyFailed failure).logLine ++ "\n") := by
  intro outcome
  obtain ⟨hresult, hwritten⟩ := Source.list_of_unlistable choices.input machine h
  have hreport :=
    Report.ofListing_of_error ⟨choices.input, none, choices.config⟩ choices.silent hresult
  have hnotices : outcome.notices = _ := congrArg Report.notices hreport
  refine ⟨congrArg Report.exitCode hreport, (congrArg Report.listing hreport).trans hwritten,
    Outcome.statusLines_eq hnotices, fun hsilent hverbose => ?_⟩
  rw [hsilent] at hnotices
  rw [hsilent, hverbose, hnotices, Notice.errorText_of_silent, ← List.cons_append]
  refine Notice.errorText_of_failed (List.forall_mem_cons.mpr ⟨Level.noConfusion, fun e he => ?_⟩) _
  exact Source.level_ne_error_of_mem_list _ machine _ _ he

end

/-- **A file is reported in full.** A command line that prints the listing of a file stands for
choices, and every choice has a command line. The exit code is zero exactly if the contents can be
listed, else one. If they can, the lines that the policy says are printed, and the line for the user
has the counts, with a mark that tells whether all words are instructions. If not, only the lines
before the word in the way are printed, if it is a word, and the line for the user has the message
about it. That line comes after the log and is left out with `--silent`, where the log shows nothing
but the failure; the two switches have no influence on the exit code, the bytes printed and the
events. -/
theorem disasm_reports_file :
    (∀ args invocation options, Usage.parse args = .ok invocation →
      invocation.command = .disasm options → options.output = none →
      ∃ choices : Usage.DisasmChoices, choices.invocation none = invocation) ∧
    ∀ (choices : Usage.DisasmChoices) (machine : Machine) (directory : Directory),
    let config := choices.config
    let contents := directory.read choices.input
    let outcome := (choices.invocation none).run machine directory
    let errorText :=
      Notice.errorText (LogFilter.choose none choices.verbose choices.silent) outcome.notices
    Usage.parse (choices.arguments none) = .ok (choices.invocation none) ∧
    (outcome.exitCode = 0 ↔ ∃ words, Listable config contents words) ∧
    (outcome.exitCode ≠ 0 → outcome.exitCode = 1) ∧
    (∀ words, Listable config contents words →
      outcome.stdout = bytesOf (listedLines config words) ∧
      outcome.statusLines = (if choices.silent then [] else [summaryLine words]) ∧
      (choices.silent = true → choices.verbose = false → errorText = "")) ∧
    (outcome.exitCode = 1 → ∃ failure printed, Unlistable config contents failure printed ∧
      outcome.stdout = printed ∧
      outcome.statusLines = (if choices.silent then [] else ["✗ " ++ failure.message]) ∧
      (choices.silent = true → choices.verbose = false →
        errorText = (Event.disassemblyFailed failure).logLine ++ "\n")) ∧
    (∀ filter, Notice.errorText filter outcome.notices =
      Notice.errorText filter (outcome.events.map .event) ++
        String.join (outcome.statusLines.map (· ++ "\n"))) ∧
    ∀ verbose silent,
      let others : Usage.DisasmChoices := { choices with verbose := verbose, silent := silent }
      let other := (others.invocation none).run machine directory
      other.exitCode = outcome.exitCode ∧ other.stdout = outcome.stdout ∧
        other.events = outcome.events := by
  constructor
  · intro args invocation options hparse hcommand hprinted
    obtain ⟨choices, hchoices, -⟩ := Usage.exists_choices_of_parse hparse hcommand
    rw [hprinted] at hchoices
    exact ⟨choices, hchoices⟩
  intro choices machine directory config contents outcome errorText
  have hlisted words (h : Listable config contents words) := run_of_listable machine h
  have hfailed failure printed (h : Unlistable config contents failure printed) :=
    run_of_unlistable machine h
  have hcases := listable_or_unlistable config contents
  -- the switches reach the report only through the lines for the user
  obtain ⟨es, status, hnotices⟩ := Report.exists_notices_ofListing ⟨choices.input, none, config⟩
    ((Source.file choices.input contents).list config machine {})
  refine ⟨choices.parse_arguments (by simp), ⟨fun hzero => ?_, ?_⟩, fun hne => ?_,
    fun words h => (hlisted words h).2, fun hone => ?_,
    fun filter => Outcome.errorText_eq (hnotices choices.silent) filter, fun verbose silent => ?_⟩
  · rcases hcases with hwords | ⟨failure, printed, h⟩
    · exact hwords
    · rw [(hfailed failure printed h).1] at hzero
      exact nomatch hzero
  · rintro ⟨words, h⟩
    exact (hlisted words h).1
  · rcases hcases with ⟨words, h⟩ | ⟨failure, printed, h⟩
    · exact absurd (hlisted words h).1 hne
    · exact (hfailed failure printed h).1
  · rcases hcases with ⟨words, h⟩ | ⟨failure, printed, h⟩
    · rw [(hlisted words h).1] at hone
      exact nomatch hone
    · exact ⟨failure, printed, h, (hfailed failure printed h).2⟩
  · have hevents : outcome.events = es := Outcome.events_eq (hnotices choices.silent)
    exact ⟨rfl, rfl, (Outcome.events_eq (hnotices silent)).trans hevents.symm⟩

end RiscvListing
