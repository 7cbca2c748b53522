import RiscvListing.Proofs.FileReport
import RiscvListing.Proofs.Paths

/-!
# Listings that go to a file

A listing may go to a file, which is made or emptied before the input is read.

* `Redirects level`: two runs differ in where the listing goes and in nothing else, as far as a log
  of that level tells.
* `redirects_of_create`: a run with a file for the listing is the run without, where that file is
  empty from the start.
* `run_of_no_words`, `run_of_unreadable`: what an input without words and one that cannot be read
  come to, from which the two runs are told apart where the input meets the file
  (`redirects_iff_of_meets`).
* **Redirection** (`output_only_redirects`): the run with a file does as the run without, exactly if
  the input does not meet the file or had no words anyway; and a file that cannot be made ends the
  run before anything is changed.
* **The input is lost** (`output_over_input_is_lost`) where the two are one file.
-/

namespace RiscvListing

open Listing (bytesOf indexedLine)

/-! ## Runs that differ in where the listing goes -/

/-- Whether a log of this level shows the notice. Lines for the user are always shown. -/
def Notice.shownAt (level : Level) : Notice → Bool
  | .event e => LogFilter.shows (some level) e.level
  | .status _ => true

/-- The notices of an invocation that a log of this level shows. -/
def Outcome.shownNotices (o : Outcome) (level : Level) : List Notice :=
  o.notices.filter (·.shownAt level)

/-- A run whose listing goes to a file does as the run that prints it, but for where the listing
goes: nothing is printed, the file has the listing, and nothing else changes. -/
structure Redirects (level : Level) (target : Location) (before : Directory)
    (printing redirected : Outcome) : Prop where
  /-- The exit code is the same. -/
  exitCode : redirected.exitCode = printing.exitCode
  /-- The events of the level and the lines for the user are the same. -/
  notices : redirected.shownNotices level = printing.shownNotices level
  /-- Nothing is printed. -/
  stdout : redirected.stdout = []
  /-- The file has what would have been printed. -/
  written : redirected.directory.contents? target = some printing.stdout
  /-- No other file or directory changes. -/
  others : ∀ location, location ≠ target →
    redirected.directory.node? location = before.node? location

section

open Usage (DisasmChoices)

variable (choices : DisasmChoices) (machine : Machine) {directory : Directory} {output : String}
  {target : Location}

/-- With a file for the listing, the run is that where the file is empty from the start. -/
theorem run_some (h : directory.create output = .ok target) :
    let printing := (choices.invocation none).run machine (directory.write target [])
    (choices.invocation (some output)).run machine directory =
      ⟨printing.exitCode, [], printing.notices,
        (directory.write target []).write target printing.stdout⟩ := by
  simp only [Invocation.run, DisasmChoices.invocation, h]
  rfl

/-- Emptying a file and writing the listing to it changes nothing else. -/
theorem redirects_of_create (h : directory.create output = .ok target) (level : Level) :
    Redirects level target directory
      ((choices.invocation none).run machine (directory.write target []))
      ((choices.invocation (some output)).run machine directory) := by
  have htakes := Directory.takes_of_create h
  rw [run_some choices machine h]
  refine ⟨rfl, rfl, rfl, ?_, fun location hne => ?_⟩
  · exact ((htakes.write []).contents?_write _ target).trans (if_pos rfl)
  · show ((directory.write target []).write target _).node? location = _
    rw [(htakes.write []).node?_write, if_neg hne, htakes.node?_write, if_neg hne]

/-- A run that prints its listing depends on what is read and on nothing else. -/
theorem run_none (directory : Directory) :
    (choices.invocation none).run machine directory =
      let report := Report.ofListing ⟨choices.input, none, choices.config⟩ choices.silent
        ((Source.file choices.input (directory.read choices.input)).list choices.config machine {})
      ⟨report.exitCode, report.listing, report.notices, directory⟩ := rfl

/-- If the same is read where the file is empty, the two runs differ in nothing else. -/
theorem redirects_of_read (h : directory.create output = .ok target)
    (hread : (directory.write target []).read choices.input = directory.read choices.input)
    (level : Level) :
    Redirects level target directory ((choices.invocation none).run machine directory)
      ((choices.invocation (some output)).run machine directory) := by
  have hredirects := redirects_of_create choices machine h level
  rw [run_none, hread] at hredirects
  exact ⟨hredirects.exitCode, hredirects.notices, hredirects.stdout, hredirects.written,
    hredirects.others⟩

/-! ## Runs without a listing -/

/-- The listing of no words. -/
theorem Listing.run_nil (config : Config) :
    Listing.run config machine {} [] =
      ⟨.ok ⟨0, 0, 0⟩, [], 1, [.listingComplete ⟨0, 0, 0⟩], {}⟩ := by
  have haddr : Listing.AddressesFit config ([] : List Word).length :=
    .inr (decide_eq_true (Nat.le_of_lt_succ config.base.isLt))
  rw [Listing.run_of_neverFails config machine Sink.neverFails_default haddr, Listing.begun,
    Listing.snd_decodeWords, if_pos (.inr (by decide))]
  rfl

/-- The notices of a run that has little to say: that it begins, one event, and how it went. -/
def briefNotices (last : Event) (status : Status) : List Notice :=
  [Event.disassembling choices.input choices.config.inputFormat, last].map .event ++
    Report.statusNotices choices.silent status

/-- Its events are these two. -/
theorem eq_of_mem_briefNotices {e last : Event} {status : Status}
    (h : Notice.event e ∈ briefNotices choices last status) :
    e = .disassembling choices.input choices.config.inputFormat ∨ e = last := by
  rcases List.mem_append.mp h with hevent | hstatus
  · simpa using hevent
  · unfold Report.statusNotices at hstatus
    cases hsilent : choices.silent <;> simp [hsilent] at hstatus

/-- A run on an input without words. How many bytes it has is told at lower levels only. -/
theorem run_of_no_words {bytes : List UInt8} (hread : directory.read choices.input = .ok bytes)
    (hwords : Program.read bytes choices.config.inputFormat = .ok []) :
    let outcome := (choices.invocation none).run machine directory
    outcome.exitCode = 0 ∧ outcome.stdout = [] ∧
      outcome.shownNotices .info =
        briefNotices choices (.done ⟨0, 0, 0⟩) (.complete ⟨0, 0, 0⟩) := by
  rw [run_none, hread, Source.list_of_read choices.input machine hwords, Listing.run_nil]
  refine ⟨rfl, rfl, ?_⟩
  unfold briefNotices
  cases choices.silent <;> rfl

/-- The notices about a file that the system does not give. -/
def ioNotices (e : IoError) : List Notice :=
  briefNotices choices (.disassemblyFailed (.io e)) (.failed (.io e))

/-- A run on an input that cannot be read. -/
theorem run_of_unreadable {e : IoError} (h : directory.read choices.input = .error e) :
    (choices.invocation none).run machine directory = ⟨1, [], ioNotices choices e, directory⟩ := by
  rw [run_none, h]
  rfl

/-- A run whose file for the listing cannot be made. -/
theorem run_of_create_error {e : IoError} (h : directory.create output = .error e) :
    (choices.invocation (some output)).run machine directory =
      ⟨1, [], ioNotices choices e, directory⟩ := by
  simp only [Invocation.run, DisasmChoices.invocation, h]
  rfl

/-- The log tells the errors of the system apart. -/
theorem eq_of_ioNotices {e e' : IoError} {o o' : Outcome} (ho : o.notices = ioNotices choices e)
    (ho' : o'.notices = ioNotices choices e')
    (h : o.shownNotices .info = o'.shownNotices .info) : e = e' := by
  have hfailed : Notice.event (.disassemblyFailed (.io e)) ∈ o.shownNotices .info := by
    rw [Outcome.shownNotices, ho]
    exact List.mem_filter.mpr ⟨List.mem_append_left _ (by simp), rfl⟩
  rw [h, Outcome.shownNotices, ho'] at hfailed
  have hlast := (eq_of_mem_briefNotices choices (List.mem_filter.mp hfailed).1).resolve_left nofun
  exact Failure.io.inj (Event.disassemblyFailed.inj hlast)

/-! ## Inputs that meet the file -/

/-- Without bytes there are no words. -/
theorem Program.read_nil (format : InputFormat) : Program.read [] format = .ok [] := by
  cases format <;> rfl

/-- A run that tells of no words had none. -/
theorem eq_nil_of_done {words : List Word}
    (h : Listable choices.config (directory.read choices.input) words)
    (hdone : ((choices.invocation none).run machine directory).shownNotices .info =
      briefNotices choices (.done ⟨0, 0, 0⟩) (.complete ⟨0, 0, 0⟩)) : words = [] := by
  obtain ⟨hresult, -⟩ := Source.list_of_listable choices.input machine h
  have hshown : Notice.event (.done (counts words)) ∈
      ((choices.invocation none).run machine directory).shownNotices .info := by
    rw [run_none, Report.ofListing_of_ok _ _ hresult]
    exact List.mem_filter.mpr ⟨List.mem_append_left _ (by simp), rfl⟩
  rw [hdone] at hshown
  have hlast := (eq_of_mem_briefNotices choices hshown).resolve_left nofun
  exact List.length_eq_zero_iff.mp (congrArg Stats.words (Event.done.inj hlast))

/-- **Where the input meets the file**, the run still does as the one that prints its listing if the
input had no words, and only then. -/
theorem redirects_iff_of_meets (h : directory.create output = .ok target)
    (hmeets : directory.Meets choices.input target) :
    Redirects .info target directory ((choices.invocation none).run machine directory)
        ((choices.invocation (some output)).run machine directory) ↔
      ∃ bytes, directory.read choices.input = .ok bytes ∧
        Program.read bytes choices.config.inputFormat = .ok [] := by
  have htakes := Directory.takes_of_create h
  have hemptied := redirects_of_create choices machine h .info
  have hcases := Directory.read_write_of_meets htakes hmeets []
  -- what a run without words on the emptied file comes to
  have hnone (hafter : (directory.write target []).read choices.input = .ok []) :=
    run_of_no_words choices machine hafter (Program.read_nil _)
  constructor
  · intro hredirects
    have hcode := hredirects.exitCode.symm.trans hemptied.exitCode
    have hshown := hredirects.notices.symm.trans hemptied.notices
    rcases hcases with ⟨old, -, hbefore, hafter⟩ | ⟨-, hbefore, hafter | hafter⟩
    · obtain ⟨hzero, -, hdone⟩ := hnone hafter
      rcases listable_or_unlistable choices.config (directory.read choices.input) with
        ⟨words, hwords⟩ | ⟨failure, printed, hfailed⟩
      · obtain rfl := eq_nil_of_done choices machine hwords (hshown.trans hdone)
        exact hwords.reads
      · rw [hzero, (run_of_unlistable machine hfailed).1] at hcode
        exact nomatch hcode
    · rw [(hnone hafter).1, run_of_unreadable choices machine hbefore] at hcode
      exact nomatch hcode
    · rw [run_of_unreadable choices machine hbefore, run_of_unreadable choices machine hafter]
        at hshown
      exact nomatch eq_of_ioNotices choices rfl rfl hshown
  · rintro ⟨bytes, hbytes, hwords⟩
    obtain ⟨hcode, hprinted, hshown⟩ := run_of_no_words choices machine hbytes hwords
    rcases hcases with ⟨old, -, -, hafter⟩ | ⟨-, hbefore, -⟩
    · obtain ⟨hcode', hprinted', hshown'⟩ := hnone hafter
      refine ⟨?_, ?_, hemptied.stdout, ?_, hemptied.others⟩
      · rw [hemptied.exitCode, hcode, hcode']
      · rw [hemptied.notices, hshown, hshown']
      · rw [hemptied.written, hprinted, hprinted']
    · rw [hbefore] at hbytes
      exact nomatch hbytes

/-! ## Redirection -/

/-- **Redirection**, for any choices (every command line that is accepted stands for some, see
`Usage.exists_choices_of_parse`). Both command lines are understood. If the file can be made or
replaced, as any file that can be read is, the run does as the one that prints its listing, where
the file is empty from the start. It does so for the files as they were if the input does not meet
the file, and at the usual level of the log exactly if, whenever the input meets it, the input had
no words. If the file cannot be made, that is what the user is told, and nothing changes. -/
theorem output_only_redirects (directory : Directory) (output : String) (houtput : output ≠ "") :
    let printing := (choices.invocation none).run machine
    let redirected := (choices.invocation (some output)).run machine directory
    Usage.parse (choices.arguments none) = .ok (choices.invocation none) ∧
    Usage.parse (choices.arguments (some output)) = .ok (choices.invocation (some output)) ∧
    (∀ contents, directory.read output = .ok contents →
      ∃ target, directory.create output = .ok target ∧
        directory.contents? target = some contents) ∧
    (∀ target, directory.create output = .ok target →
      (∀ level,
        Redirects level target directory (printing (directory.write target [])) redirected) ∧
      (¬ directory.Meets choices.input target →
        ∀ level, Redirects level target directory (printing directory) redirected) ∧
      (Redirects .info target directory (printing directory) redirected ↔
        (directory.Meets choices.input target → ∃ bytes, directory.read choices.input = .ok bytes ∧
          Program.read bytes choices.config.inputFormat = .ok []))) ∧
    ∀ e, directory.create output = .error e →
      redirected.exitCode = 1 ∧ redirected.stdout = [] ∧ redirected.directory = directory ∧
        redirected.statusLines =
          if choices.silent then [] else ["✗ " ++ (Failure.io e).message] := by
  intro printing redirected
  refine ⟨choices.parse_arguments (by simp), choices.parse_arguments (by simpa using houtput),
    fun contents => Directory.exists_create_of_read, fun target hcreate => ?_, fun e hcreate => ?_⟩
  · have hapart (hmeets : ¬ directory.Meets choices.input target) (level : Level) :
        Redirects level target directory (printing directory) redirected :=
      redirects_of_read choices machine hcreate
        (Directory.read_write (Directory.takes_of_create hcreate) hmeets []) level
    refine ⟨redirects_of_create choices machine hcreate, hapart, ?_⟩
    by_cases hmeets : directory.Meets choices.input target
    · rw [redirects_iff_of_meets choices machine hcreate hmeets]
      exact ⟨fun h _ => h, fun h => h hmeets⟩
    · exact ⟨fun _ h => absurd h hmeets, fun _ => hapart hmeets .info⟩
  · have hrun : redirected = _ := run_of_create_error choices machine hcreate
    have hnotices : redirected.notices = _ := congrArg Outcome.notices hrun
    exact ⟨congrArg Outcome.exitCode hrun, congrArg Outcome.stdout hrun,
      congrArg Outcome.directory hrun, Outcome.statusLines_eq hnotices⟩

end

/-- A listing that is aborted at its second word leaves the line of the first in the file, which is
in another directory and had other contents, and leaves the input alone. -/
theorem output_only_redirects_aborted :
    let directory : Directory :=
      ⟨["w"], [(["w", "a.bin"], .file [0x73, 0, 0, 0, 0x7F, 0, 0, 0]), (["tmp"], .directory),
        (["tmp", "out.s"], .file [0x0A])]⟩
    let choices : Usage.DisasmChoices :=
      { input := "a.bin", input_ne := by decide, onInvalid := some .abort }
    let machine : Machine := { processors := 2 }
    let redirected := (choices.invocation (some "../tmp/out.s")).run machine directory
    directory.create "../tmp/out.s" = .ok ["tmp", "out.s"] ∧
    ¬ directory.Meets choices.input ["tmp", "out.s"] ∧
    redirected.exitCode = 1 ∧ redirected.stdout = [] ∧
    redirected.directory.contents? ["tmp", "out.s"] = some (Utf8.encode "ecall\n".toList) ∧
    redirected.directory.node? ["w", "a.bin"] = some (.file [0x73, 0, 0, 0, 0x7F, 0, 0, 0]) := by
  intro directory choices machine redirected
  have hcreate : directory.create "../tmp/out.s" = .ok ["tmp", "out.s"] := by decide
  have hmeets : ¬ directory.Meets choices.input ["tmp", "out.s"] := by
    rintro ⟨rest, ⟨-, first, name, place, hpath, -, hplace⟩, -⟩
    have hparts : place ++ [name] = ["tmp"] ++ ["out.s"] := hplace
    obtain rfl := List.singleton_inj.mp (List.append_inj' hparts rfl).2
    have hmem : "out.s" ∈ Directory.components "a.bin" := by
      rw [show Directory.components "a.bin" = _ from hpath]
      exact List.mem_append_right first List.mem_cons_self
    exact absurd hmem (by decide)
  have hread : directory.read choices.input = .ok [0x73, 0, 0, 0, 0x7F, 0, 0, 0] := by decide
  have hwords : Program.read [0x73, 0, 0, 0, 0x7F, 0, 0, 0] choices.config.inputFormat =
      .ok ([0x73] ++ 0x7F :: []) := by decide
  have hr : decode 0x7F = .error ⟨0x7F, 0x7F, .opcode⟩ := by decide
  have hrejected : Unlistable choices.config (directory.read choices.input)
      (.rejected ⟨0x7F, 0x7F, .opcode⟩)
      (bytesOf (([0x73] : List Word).zipIdx.map (indexedLine choices.config))) :=
    .rejected hread hwords nofun rfl (List.forall_mem_singleton.mpr (by decide)) hr
  obtain ⟨hcode, hprinted, -⟩ := run_of_unlistable machine hrejected
  obtain ⟨-, -, -, hfiles, -⟩ :=
    output_only_redirects choices machine directory "../tmp/out.s" (by decide)
  obtain ⟨hexit, -, hstdout, hwritten, hothers⟩ := (hfiles _ hcreate).2.1 hmeets .info
  have hline : bytesOf (([0x73] : List Word).zipIdx.map (indexedLine choices.config)) =
      Utf8.encode "ecall\n".toList := by decide
  rw [hprinted, hline] at hwritten
  have hinput : directory.node? ["w", "a.bin"] =
      some (.file [0x73, 0, 0, 0, 0x7F, 0, 0, 0]) := by decide
  exact ⟨hcreate, hmeets, hexit.trans hcode, hstdout, hwritten,
    (hothers _ (by decide)).trans hinput⟩

/-- **The input is lost** if the listing goes to the file it is made from: the file is emptied
before it is read, so the listing has no lines, and the user is told that all is well. -/
theorem output_over_input_is_lost :
    let directory : Directory := ⟨["w"], [(["w", "a.bin"], .file [0x73, 0, 0, 0])]⟩
    let choices : Usage.DisasmChoices := { input := "a.bin", input_ne := by decide }
    let machine : Machine := { processors := 2 }
    let printing := (choices.invocation none).run machine directory
    let redirected := (choices.invocation (some "a.bin")).run machine directory
    directory.create "a.bin" = .ok ["w", "a.bin"] ∧
    printing.stdout = Utf8.encode "ecall\n".toList ∧
    printing.statusLines = ["✓ 1 words, 1 decoded, 0 invalid"] ∧
    redirected.directory.contents? ["w", "a.bin"] = some [] ∧
    redirected.statusLines = ["✓ 0 words, 0 decoded, 0 invalid"] ∧
    ¬ Redirects .info ["w", "a.bin"] directory printing redirected := by
  intro directory choices machine printing redirected
  have hcreate : directory.create "a.bin" = .ok ["w", "a.bin"] := by decide
  have hlisted : Listable choices.config (directory.read choices.input) [0x73] :=
    ⟨⟨[0x73, 0, 0, 0], by decide, by decide⟩, nofun, nofun⟩
  have hempty : Listable choices.config
      ((directory.write ["w", "a.bin"] []).read choices.input) [] :=
    ⟨⟨[], by decide, by decide⟩, nofun, nofun⟩
  obtain ⟨-, hprinted, hstatus, -⟩ := run_of_listable machine hlisted
  obtain ⟨-, hprinted', hstatus', -⟩ := run_of_listable machine hempty
  have hstdout : printing.stdout = Utf8.encode "ecall\n".toList := by
    have hlines : bytesOf (listedLines choices.config [0x73]) =
        Utf8.encode "ecall\n".toList := by decide
    exact hprinted.trans hlines
  have hcontents : redirected.directory.contents? ["w", "a.bin"] = some [] := by
    have hlines : bytesOf (listedLines choices.config []) = [] := by decide
    rw [(redirects_of_create choices machine hcreate .info).written]
    exact congrArg some (hprinted'.trans hlines)
  have hlost : redirected.statusLines = ["✓ 0 words, 0 decoded, 0 invalid"] := by
    have hrun : redirected = _ := run_some choices machine hcreate
    rw [hrun]
    exact hstatus'
  refine ⟨hcreate, hstdout, hstatus, hcontents, hlost, fun h => ?_⟩
  have hsame := h.written
  rw [hcontents, hstdout] at hsame
  exact absurd hsame (by decide)

end RiscvListing
