import RiscvListing.Proofs.HexText
import RiscvListing.Usage.Parser

/-!
# Writing command lines

A command line is read argument by argument; here are command lines to be read, and what they come
to.

* `Usage.Given`: an option as it is given, a switch or a setting with its text. It is taken by
  settling what waits and accepting the option (`Usage.State.take_argument`), so options in a row
  are a fold over the draft (`Usage.scan_arguments`).
* `Usage.DisasmChoices`: everything a user can choose for a listing but where it goes, each option
  given or left out. `DisasmChoices.arguments` writes the choices as a command line and
  `DisasmChoices.invocation` is what they stand for.
* **Choices are understood** (`Usage.parse_arguments`): the parser makes of the command line the
  invocation that the choices stand for, defaults included.
* **Words and files are understood** (`Usage.parse_decode`, `Usage.parse_disasm_hex`): texts that
  spell words stand for these words, and a path may come before the options.
-/

namespace RiscvListing.Usage

/-! ## One option -/

/-- An option as it is given. -/
inductive Given where
  /-- A switch. -/
  | switch (switch : Switch)
  /-- A setting with its text. -/
  | setting (setting : Setting) (text : String)
  deriving DecidableEq, Repr

/-- The name of a switch. -/
def Switch.name : Switch → String
  | .verbose => "verbose"
  | .silent => "silent"
  | .abi => "abi"
  | .addresses => "addresses"

/-- The name of a setting. -/
def Setting.name : Setting → String
  | .output => "output"
  | .format => "format"
  | .onInvalid => "on-invalid"
  | .base => "base"
  | .jobs => "jobs"

namespace Given

/-- The argument that gives an option. -/
def argument : Given → String
  | .switch sw => "--" ++ sw.name
  | .setting st text => "--" ++ st.name ++ "=" ++ text

/-- Accepts an option into a draft. -/
def accept (d : Draft) : Given → Except Issue Draft
  | .switch sw => d.turnOn sw
  | .setting st text => d.assign st text

/-- The option is understood at a level. -/
def Known (scope : Scope) : Given → Prop
  | .switch sw => scope.long? sw.name = some (.switch sw)
  | .setting st _ => scope.long? st.name = some (.setting st)

/-- After `disasm`, every option is understood. -/
theorem known_disasm (g : Given) : g.Known .disasm := by
  unfold Known
  cases g with
  | switch sw => cases sw <;> rfl
  | setting st text => cases st <;> rfl

theorem ofString_switch (sw : Switch) :
    Argument.ofString (Given.switch sw).argument = .long sw.name none := by
  cases sw <;> decide

theorem ofString_setting (st : Setting) (text : String) :
    Argument.ofString (Given.setting st text).argument = .long st.name (some text) := by
  have htext : String.ofList text.toList = text := String.ofList_toList
  unfold argument Argument.ofString
  dsimp only
  rw [String.toList_append, String.toList_append, String.toList_append]
  -- the name is known, so the argument is cut at its first equals sign
  cases st <;> exact congrArg (fun value => Argument.long _ (some value)) htext

theorem ofString_argument_ne (g : Given) : Argument.ofString g.argument ≠ .separator := by
  cases g with
  | switch sw => rw [ofString_switch]; exact Argument.noConfusion
  | setting st text => rw [ofString_setting]; exact Argument.noConfusion

end Given

section

variable {scope : Scope} {g : Given} (h : g.Known scope) {s : State} {d d' : Draft}
  (hsettled : s.settled = .ok d) (haccept : g.accept d = .ok d')

include h hsettled haccept

/-- **One option**: what waits is settled first, then the option is accepted. -/
theorem State.take_argument : s.take scope g.argument = .ok { draft := d' } := by
  unfold State.take
  cases g with
  | switch sw =>
      have hturn : d.turnOn sw = .ok d' := haccept
      rw [Given.ofString_switch]
      dsimp only
      unfold State.long
      rw [show scope.long? sw.name = some (.switch sw) from h]
      dsimp only
      unfold State.react
      rw [hsettled]
      simp only [bind, Except.bind, hturn]
      rfl
  | setting st text =>
      have hassign : d.assign st text = .ok d' := haccept
      rw [Given.ofString_setting]
      dsimp only
      unfold State.long
      rw [show scope.long? st.name = some (.setting st) from h]
      dsimp only
      unfold State.assign
      rw [hsettled]
      simp only [bind, Except.bind, hassign]
      rfl

/-- An option, and the arguments after it. -/
theorem scan_argument (rest : List String) :
    scan scope s (g.argument :: rest) = scan scope { draft := d' } rest := by
  rw [scan, if_neg (Given.ofString_argument_ne g), State.take_argument h hsettled haccept]
  rfl

end

/-- **Options in a row** are accepted one after the other. -/
theorem scan_arguments {scope : Scope} {gs : List Given} (h : ∀ g ∈ gs, g.Known scope)
    {d d' : Draft} (haccept : gs.foldlM Given.accept d = .ok d') (rest : List String) :
    scan scope { draft := d } (gs.map Given.argument ++ rest) =
      scan scope { draft := d' } rest := by
  induction gs generalizing d with
  | nil =>
      obtain rfl := Except.ok.inj haccept
      rfl
  | cons g gs ih =>
      rw [List.foldlM_cons] at haccept
      rcases hg : g.accept d with e | d₁
      · rw [hg] at haccept
        exact nomatch haccept
      · rw [hg] at haccept
        rw [List.map_cons, List.cons_append, scan_argument (h g List.mem_cons_self) rfl hg]
        exact ih (fun g' hg' => h g' (List.mem_cons_of_mem g hg')) haccept

/-! ## Values -/

/-- The text of an input format. -/
def formatText : InputFormat → String
  | .binary => "binary"
  | .hex => "hex"

/-- The text of a policy. -/
def policyText : InvalidPolicy → String
  | .abort => "abort"
  | .skip => "skip"
  | .mark => "mark"

theorem parseFormat_formatText (format : InputFormat) :
    parseFormat (formatText format) = .ok format := by cases format <;> rfl

theorem parsePolicy_policyText (policy : InvalidPolicy) :
    parsePolicy (policyText policy) = .ok policy := by cases policy <;> rfl

theorem parsePath_of_ne {path : String} (h : path ≠ "") : parsePath path = .ok path := if_neg h

theorem parseWord_eq_ok_iff {text : String} {w : Word} :
    parseWord text = .ok w ↔ HexWord.parse? text.toList = some w := by
  unfold parseWord
  rcases HexWord.parse? text.toList with _ | w' <;> simp

/-- A spelling of a word is a word. -/
theorem parseWord_spelling (s : HexWord.Spelling) :
    parseWord (String.ofList s.text) = .ok s.word := by
  rw [parseWord_eq_ok_iff, String.toList_ofList, HexWord.parse?_text]

/-- The decimal digits of a number of 64 bits are a count. -/
theorem parseCount_natural {n : Nat} (h : n ≤ 0xFFFFFFFFFFFFFFFF) :
    parseCount (Numeral.natural n) = .ok n := by
  have hvalue : naturalValue (Nat.toDigits 10 n) = n :=
    Nat.ofDigitChars_toDigits (by decide) (by decide)
  have hdigit : ∀ c ∈ Nat.toDigits 10 n, c.isDigit = true := fun c hc =>
    Numeral.isDigit_of_mem_natural (by rwa [Numeral.toList_natural])
  have hpos : Nat.toDigits 10 n ≠ [] := Nat.toDigits_ne_nil
  unfold parseCount
  rw [Numeral.toList_natural]
  rcases hdigits : Nat.toDigits 10 n with _ | ⟨c, cs⟩
  · exact absurd hdigits hpos
  · rw [hdigits] at hvalue hdigit
    have hplus : c ≠ '+' := by
      rintro rfl
      exact absurd (hdigit '+' List.mem_cons_self) (by decide)
    obtain ⟨hc, hcs⟩ := List.forall_mem_cons.1 hdigit
    simpa [hplus, hvalue, h, hc] using hcs

/-! ## Choices for a listing -/

/-- A setting that is given or left out, by its value. -/
def optional {α : Type} (st : Setting) (text : α → String) (v? : Option α) : List Given :=
  (v?.map fun v => Given.setting st (text v)).toList

/-- A setting that is left out changes nothing, and one that is given is assigned. -/
theorem accept_optional {α : Type} {st : Setting} {text : α → String} {v? : Option α}
    (draft : Option α → Draft)
    (h : ∀ v ∈ v?, (draft none).assign st (text v) = .ok (draft (some v))) :
    (optional st text v?).foldlM Given.accept (draft none) = .ok (draft v?) := by
  rcases v? with _ | v
  · rfl
  · exact (bind_pure _).trans (h v rfl)

/-- Everything that a user can choose for a listing but where it goes, each option being given or
left out. -/
structure DisasmChoices where
  /-- The path of the input. -/
  input : String
  /-- There is a path. -/
  input_ne : input ≠ ""
  /-- The encoding of the input. -/
  format : Option InputFormat := none
  /-- What happens to invalid words. -/
  onInvalid : Option InvalidPolicy := none
  /-- Whether registers have their ABI names. -/
  abi : Bool := false
  /-- Whether addresses are shown. -/
  addresses : Bool := false
  /-- The address of the first word, as it is spelled. -/
  base : Option HexWord.Spelling := none
  /-- The number of decoders. -/
  jobs : Option Nat := none
  /-- The number has at most 64 bits. -/
  jobs_le : ∀ n ∈ jobs, n ≤ 0xFFFFFFFFFFFFFFFF := by simp
  /-- Whether more events are to be shown. -/
  verbose : Bool := false
  /-- Whether only errors are to be shown. -/
  silent : Bool := false

namespace DisasmChoices

/-- The choices for the listing itself; an option that is left out has its usual value. -/
def config (c : DisasmChoices) : Config where
  inputFormat := c.format.getD .binary
  onInvalid := c.onInvalid.getD .mark
  registers := if c.abi then .abi else .numeric
  addresses := c.addresses
  base := (c.base.map HexWord.Spelling.word).getD 0
  jobs := c.jobs.getD 0

/-- What the choices stand for, with the path for the listing if there is one. -/
def invocation (c : DisasmChoices) (output : Option String) : Invocation where
  verbose := c.verbose
  silent := c.silent
  command := .disasm ⟨c.input, output, c.config⟩

/-- The switches that are given after the command. -/
def switches (c : DisasmChoices) : List Given :=
  (if c.abi then [.switch .abi] else []) ++ (if c.addresses then [.switch .addresses] else []) ++
    (if c.silent then [.switch .silent] else [])

/-- The options that are given after the command. -/
def given (c : DisasmChoices) (output : Option String) : List Given :=
  optional .output id output ++ optional .format formatText c.format ++
    optional .onInvalid policyText c.onInvalid ++
    optional .base (fun s => String.ofList s.text) c.base ++
    optional .jobs Numeral.natural c.jobs ++ c.switches

/-- The command line: `--verbose`, the command, its options, and the input after a separator. -/
def arguments (c : DisasmChoices) (output : Option String) : List String :=
  (if c.verbose then ["--verbose"] else []) ++ "disasm" ::
    ((c.given output).map Given.argument ++ ["--", c.input])

/-- What the settings come to. -/
def settingsDraft (c : DisasmChoices) (output : Option String) : Draft where
  output := output
  format := c.format
  onInvalid := c.onInvalid
  base := c.base.map HexWord.Spelling.word
  jobs := c.jobs

/-- The settings are accepted one after the other, each into its own place. -/
theorem accept_settings (c : DisasmChoices) {output : Option String}
    (houtput : ∀ path ∈ output, path ≠ "") :
    (optional .output id output ++ optional .format formatText c.format ++
      optional .onInvalid policyText c.onInvalid ++
      optional .base (fun s => String.ofList s.text) c.base ++
      optional .jobs Numeral.natural c.jobs).foldlM Given.accept {} =
      .ok (c.settingsDraft output) := by
  have hout : (optional .output id output).foldlM Given.accept {} = .ok { output := output } :=
    accept_optional (fun v => { output := v }) fun path hpath => by
      simp [Draft.assign, Draft.has, parsePath_of_ne (houtput path hpath), Except.map]
  have hformat : (optional .format formatText c.format).foldlM Given.accept { output := output } =
      .ok { output := output, format := c.format } :=
    accept_optional (fun v => { output := output, format := v }) fun format _ => by
      simp [Draft.assign, Draft.has, parseFormat_formatText, Except.map]
  have hpolicy : (optional .onInvalid policyText c.onInvalid).foldlM Given.accept
      { output := output, format := c.format } =
      .ok { output := output, format := c.format, onInvalid := c.onInvalid } :=
    accept_optional (fun v => { output := output, format := c.format, onInvalid := v })
      fun policy _ => by simp [Draft.assign, Draft.has, parsePolicy_policyText, Except.map]
  have hbase : (optional .base (fun s => String.ofList s.text) c.base).foldlM Given.accept
      { output := output, format := c.format, onInvalid := c.onInvalid } =
      .ok { c.settingsDraft output with jobs := none } :=
    accept_optional (fun v => { c.settingsDraft output with
      base := v.map HexWord.Spelling.word, jobs := none }) fun spelling _ => by
      simp [Draft.assign, Draft.has, parseWord_spelling, Except.map]
  have hjobs : (optional .jobs Numeral.natural c.jobs).foldlM Given.accept
      { c.settingsDraft output with jobs := none } = .ok (c.settingsDraft output) :=
    accept_optional (fun v => { c.settingsDraft output with jobs := v }) fun n hn => by
      simp [Draft.assign, Draft.has, parseCount_natural (c.jobs_le n hn), Except.map]
  simp only [List.foldlM_append, hout, hformat, hpolicy, hbase, hjobs, bind, Except.bind]

/-- What the whole command line comes to, but for the switch in front of the command. -/
def draft (c : DisasmChoices) (output : Option String) : Draft :=
  { c.settingsDraft output with
    switches := (if c.silent then [.silent] else []) ++
      (if c.addresses then [.addresses] else []) ++ (if c.abi then [.abi] else [])
    file := some c.input }

/-- The options are accepted one after the other. -/
theorem accept_given (c : DisasmChoices) {output : Option String}
    (houtput : ∀ path ∈ output, path ≠ "") :
    (c.given output).foldlM Given.accept {} = .ok { c.draft output with file := none } := by
  unfold given
  rw [List.foldlM_append, c.accept_settings houtput]
  unfold switches draft
  cases c.abi <;> cases c.addresses <;> cases c.silent <;> rfl

/-- The arguments after the command are understood. -/
theorem scan_given (c : DisasmChoices) {output : Option String}
    (houtput : ∀ path ∈ output, path ≠ "") :
    scan .disasm {} ((c.given output).map Given.argument ++ ["--", c.input]) =
      .ok (c.draft output) := by
  rw [scan_arguments (fun g _ => g.known_disasm) (c.accept_given houtput), scan,
    if_pos (by decide)]
  show (parsePath c.input).map _ = _
  rw [parsePath_of_ne c.input_ne]
  rfl

/-- The command of the draft. -/
theorem toDisasm_draft (c : DisasmChoices) (output : Option String) :
    (c.draft output).toDisasm = .ok (.disasm ⟨c.input, output, c.config⟩) := by
  unfold draft config
  cases c.abi <;> cases c.addresses <;> cases c.silent <;> rfl

/-- The draft of the command never excludes itself: `--verbose` stands in front of it. -/
theorem isOn_verbose_draft (c : DisasmChoices) (output : Option String) :
    (c.draft output).isOn .verbose = false := by
  unfold draft
  cases c.abi <;> cases c.addresses <;> cases c.silent <;> rfl

theorem isOn_silent_draft (c : DisasmChoices) (output : Option String) :
    (c.draft output).isOn .silent = c.silent := by
  unfold draft
  cases c.abi <;> cases c.addresses <;> cases c.silent <;> rfl

/-- **Choices are understood**: their command line stands for them. -/
theorem parse_arguments (c : DisasmChoices) {output : Option String}
    (houtput : ∀ path ∈ output, path ≠ "") :
    parse (c.arguments output) = .ok (c.invocation output) := by
  -- the two switches stand on either side of the command, so they do not exclude each other
  have hfinish (top : Draft) (hsilent : top.isOn .silent = false)
      (hverbose : top.isOn .verbose = c.verbose) :
      finish top .disasm Draft.toDisasm
        ((c.given output).map Given.argument ++ ["--", c.input]) = .ok (c.invocation output) := by
    unfold finish
    rw [c.scan_given houtput]
    simp only [bind, Except.bind, c.toDisasm_draft, Draft.checkSwitches, hsilent, hverbose,
      isOn_verbose_draft, isOn_silent_draft, Bool.and_false, Bool.or_false, Bool.false_or]
    rfl
  unfold parse arguments
  by_cases hverbose : c.verbose = true
  · rw [if_pos hverbose]
    exact hfinish { switches := [.verbose] } rfl (by rw [hverbose]; rfl)
  · rw [if_neg hverbose]
    exact hfinish {} rfl (Bool.eq_false_iff.mpr hverbose).symm

end DisasmChoices

/-! ## Words and files in a row -/

/-- An argument that spells a word is no option. -/
theorem ofString_of_parseWord {text : String} {w : Word} (h : parseWord text = .ok w) :
    Argument.ofString text = .plain := by
  have hhyphen : ∀ rest, text.toList ≠ '-' :: rest := by
    intro rest htext
    have hnone : HexWord.parse? ('-' :: rest) = none := rfl
    rw [parseWord_eq_ok_iff, htext, hnone] at h
    exact nomatch h
  unfold Argument.ofString
  split
  case h_5 => rfl
  all_goals exact absurd (by assumption) (hhyphen _)

/-- The argument for ABI names, if it is given. -/
def abiArgument (abi : Bool) : List String := if abi then ["--abi"] else []

/-- Words in a row wait together. -/
theorem scan_words {texts : List String} (h : ∀ t ∈ texts, Argument.ofString t = .plain)
    (d : Draft) (before rest : List String) :
    scan .decode ⟨d, .words before⟩ (texts ++ rest) =
      scan .decode ⟨d, .words (before ++ texts)⟩ rest := by
  induction texts generalizing before with
  | nil => rw [List.nil_append, List.append_nil]
  | cons text texts ih =>
      have hplain := h text List.mem_cons_self
      have htake : State.take .decode ⟨d, .words before⟩ text =
          .ok ⟨d, .words (before ++ [text])⟩ := by
        unfold State.take
        rw [hplain]
        rfl
      rw [List.cons_append, scan, hplain, if_neg Argument.noConfusion, htake]
      exact (ih (fun t ht => h t (List.mem_cons_of_mem text ht)) (before ++ [text])).trans
        (by rw [List.append_assoc, List.singleton_append])

section

open HexWord (Spelling)

/-- The texts of spellings, as they are given. -/
def spelled (ss : List Spelling) : List String := ss.map fun s => String.ofList s.text

/-- Spellings are words, in order. -/
theorem mapM_parseWord (ss : List Spelling) :
    (spelled ss).mapM parseWord = .ok (ss.map Spelling.word) := by
  induction ss with
  | nil => rfl
  | cons s ss ih =>
      unfold spelled at ih ⊢
      rw [List.map_cons, List.mapM_cons, parseWord_spelling, ih]
      rfl

/-- Texts that are words are spellings. -/
theorem exists_spellings {texts : List String} (h : ∀ t ∈ texts, ∃ w, parseWord t = .ok w) :
    ∃ ss : List Spelling, spelled ss = texts := by
  induction texts with
  | nil => exact ⟨[], rfl⟩
  | cons text texts ih =>
      obtain ⟨ss, rfl⟩ := ih fun t ht => h t (List.mem_cons_of_mem text ht)
      obtain ⟨w, hw⟩ := h text List.mem_cons_self
      obtain ⟨s, hs, -⟩ := HexWord.exists_spelling_of_parse? (parseWord_eq_ok_iff.mp hw)
      exact ⟨s :: ss, by rw [spelled, List.map_cons, hs, String.ofList_toList, spelled]⟩

/-- The arguments after the command are understood. -/
theorem scan_spelled (s : Spelling) (ss : List Spelling) (abi : Bool) :
    scan .decode {} (spelled (s :: ss) ++ abiArgument abi) =
      .ok { switches := if abi then [.abi] else [], words := (s :: ss).map Spelling.word } := by
  have hplain : ∀ t ∈ spelled (s :: ss), Argument.ofString t = .plain := by
    intro t ht
    obtain ⟨s', -, rfl⟩ := List.mem_map.mp ht
    exact ofString_of_parseWord (parseWord_spelling s')
  have hwords : scan .decode {} (spelled (s :: ss) ++ abiArgument abi) =
      scan .decode ⟨{}, .words (spelled (s :: ss))⟩ (abiArgument abi) := by
    obtain ⟨hs, hss⟩ := List.forall_mem_cons.1 hplain
    have htake : State.take .decode {} (String.ofList s.text) =
        .ok ⟨{}, .words [String.ofList s.text]⟩ := by
      unfold State.take
      rw [hs]
      rfl
    rw [spelled, List.map_cons, List.cons_append, scan, hs, if_neg Argument.noConfusion, htake]
    exact scan_words hss {} [String.ofList s.text] (abiArgument abi)
  have hsettled : State.settled ⟨{}, .words (spelled (s :: ss))⟩ =
      .ok { words := (s :: ss).map Spelling.word } := by
    unfold State.settled Draft.settle
    dsimp only
    rw [mapM_parseWord]
    rfl
  rw [hwords]
  cases abi with
  | false => exact hsettled
  | true =>
      have hknown : (Given.switch .abi).Known .decode := by
        unfold Given.Known
        rfl
      exact scan_argument hknown hsettled rfl []

/-- **Words are understood**: texts that spell words stand for these words. -/
theorem parse_decode {ss : List Spelling} (hne : ss ≠ []) (abi : Bool) :
    parse ("decode" :: (spelled ss ++ abiArgument abi)) =
      .ok ⟨false, false, .decode (ss.map Spelling.word) (if abi then .abi else .numeric)⟩ := by
  obtain ⟨s, ss, rfl⟩ := List.exists_cons_of_ne_nil hne
  show finish {} .decode Draft.toDecode (spelled (s :: ss) ++ abiArgument abi) = _
  unfold finish
  rw [scan_spelled]
  cases abi <;> rfl

end

/-- The arguments after the command are understood, the path first. -/
theorem scan_hex {path : String} (hne : path ≠ "") (hplain : Argument.ofString path = .plain)
    (abi : Bool) :
    scan .disasm {} (path :: "--format" :: "hex" :: abiArgument abi) =
      .ok { switches := if abi then [.abi] else [], format := some .hex, file := some path } := by
  have hpath : State.take .disasm {} path = .ok ⟨{}, .file path⟩ := by
    unfold State.take
    rw [hplain]
    rfl
  have hformat : State.take .disasm ⟨{}, .file path⟩ "--format" =
      .ok ⟨{ file := some path }, .awaiting .format⟩ := by
    show (do return (⟨← (parsePath path).map _, _⟩ : State)) = _
    rw [parsePath_of_ne hne]
    rfl
  rw [scan, hplain, if_neg Argument.noConfusion, hpath]
  show scan .disasm _ ("--format" :: _) = _
  rw [scan, if_neg (by decide), hformat]
  cases abi <;> rfl

/-- **A file in hexadecimal is understood**, with the usual choices but for its format. -/
theorem parse_disasm_hex {path : String} (hne : path ≠ "")
    (hplain : Argument.ofString path = .plain) (abi : Bool) :
    parse ("disasm" :: path :: "--format" :: "hex" :: abiArgument abi) =
      .ok ⟨false, false, .disasm ⟨path, none,
        { inputFormat := .hex, registers := if abi then .abi else .numeric }⟩⟩ := by
  show finish {} .disasm Draft.toDisasm (path :: "--format" :: "hex" :: abiArgument abi) = _
  unfold finish
  rw [scan_hex hne hplain]
  cases abi <;> rfl

end RiscvListing.Usage
