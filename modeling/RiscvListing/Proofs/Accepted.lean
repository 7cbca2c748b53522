import RiscvListing.Proofs.CommandLine

/-!
# What a command line is accepted as

Whatever the order and the spelling of its arguments, a command line that is understood comes to
values that were checked.

* `Usage.Draft.Accepted`: the values of a draft are ones that were accepted. Accepting a switch, a
  setting or a value that waits keeps that (`Draft.Accepted.turnOn`, `Draft.Accepted.assign`,
  `Draft.Accepted.settle`).
* `Usage.State.accepted_take`, `Usage.accepted_scan`: so does one argument, and so do all arguments
  after a command.
* **Everything that is accepted is a choice** (`Usage.exists_choices_of_parse`): a command line that
  lists a file stands for `DisasmChoices`, so statements about all choices are about all command
  lines.
-/

namespace RiscvListing.Usage

/-! ## Results -/

/-- A result in two steps is a result of both. -/
theorem exists_of_bind_eq_ok {α β ε : Type} {x : Except ε α} {f : α → Except ε β} {b : β}
    (h : (x >>= f) = .ok b) : ∃ a, x = .ok a ∧ f a = .ok b := by
  rcases x with e | a
  · exact nomatch h
  · exact ⟨a, rfl, h⟩

theorem exists_of_map_eq_ok {α β ε : Type} {x : Except ε α} {f : α → β} {b : β}
    (h : x.map f = .ok b) : ∃ a, x = .ok a ∧ f a = b := by
  rcases x with e | a
  · exact nomatch h
  · exact ⟨a, rfl, Except.ok.inj h⟩

theorem ne_of_parsePath {text path : String} (h : parsePath text = .ok path) : path ≠ "" := by
  unfold parsePath at h
  split at h
  · exact nomatch h
  · rename_i hne
    exact Except.ok.inj h ▸ hne

theorem le_of_parseCount {text : String} {n : Nat} (h : parseCount text = .ok n) :
    n ≤ 0xFFFFFFFFFFFFFFFF := by
  unfold parseCount at h
  dsimp only at h
  split_ifs at h with hall
  obtain ⟨-, hle⟩ := Bool.and_eq_true_iff.mp hall
  exact Except.ok.inj h ▸ of_decide_eq_true hle

/-! ## Drafts -/

/-- The values of a draft are ones that were accepted. -/
structure Draft.Accepted (d : Draft) : Prop where
  /-- The path of the input is not empty. -/
  file : ∀ path ∈ d.file, path ≠ ""
  /-- The path for the listing is not empty. -/
  output : ∀ path ∈ d.output, path ≠ ""
  /-- The number of decoders has at most 64 bits. -/
  jobs : ∀ n ∈ d.jobs, n ≤ 0xFFFFFFFFFFFFFFFF

namespace Draft.Accepted

theorem empty : Draft.Accepted {} := ⟨nofun, nofun, nofun⟩

variable {d d' : Draft} (h : d.Accepted)

include h

theorem turnOn {sw : Switch} (hd : d.turnOn sw = .ok d') : d'.Accepted := by
  unfold Draft.turnOn at hd
  split at hd
  · exact nomatch hd
  · obtain rfl := Except.ok.inj hd
    exact ⟨h.file, h.output, h.jobs⟩

theorem assign {st : Setting} {text : String} (hd : d.assign st text = .ok d') : d'.Accepted := by
  unfold Draft.assign at hd
  split at hd
  · exact nomatch hd
  cases st
  case output =>
    obtain ⟨path, hpath, rfl⟩ := exists_of_map_eq_ok hd
    exact ⟨h.file, fun p hp => Option.mem_some.mp hp ▸ ne_of_parsePath hpath, h.jobs⟩
  case jobs =>
    obtain ⟨n, hn, rfl⟩ := exists_of_map_eq_ok hd
    exact ⟨h.file, h.output, fun m hm => Option.mem_some.mp hm ▸ le_of_parseCount hn⟩
  all_goals
    obtain ⟨v, -, rfl⟩ := exists_of_map_eq_ok hd
    exact ⟨h.file, h.output, h.jobs⟩

theorem settle {p : Pending} (hd : d.settle p = .ok d') : d'.Accepted := by
  cases p with
  | nothing => exact Except.ok.inj hd ▸ h
  | awaiting st => exact nomatch hd
  | value st text => exact h.assign hd
  | file text =>
      obtain ⟨path, hpath, rfl⟩ := exists_of_map_eq_ok hd
      exact ⟨fun p hp => Option.mem_some.mp hp ▸ ne_of_parsePath hpath, h.output, h.jobs⟩
  | words texts =>
      obtain ⟨ws, -, rfl⟩ := exists_of_map_eq_ok hd
      exact ⟨h.file, h.output, h.jobs⟩

end Draft.Accepted

/-! ## Arguments -/

namespace State

variable {scope : Scope} {s s' : State} (h : s.draft.Accepted)

include h

theorem accepted_react {entry : Entry} (hs : s.react entry = .ok s') : s'.draft.Accepted := by
  cases entry with
  | switch sw =>
      obtain ⟨d, hd, hs⟩ := exists_of_bind_eq_ok hs
      obtain ⟨d', hd', hs⟩ := exists_of_bind_eq_ok hs
      obtain rfl := Except.ok.inj hs
      exact (h.settle hd).turnOn hd'
  | setting st =>
      obtain ⟨d, hd, hs⟩ := exists_of_bind_eq_ok hs
      obtain rfl := Except.ok.inj hs
      exact h.settle hd
  | help =>
      obtain ⟨d, hd, hs⟩ := exists_of_bind_eq_ok hs
      exact nomatch hs
  | version =>
      obtain ⟨d, hd, hs⟩ := exists_of_bind_eq_ok hs
      exact nomatch hs

theorem accepted_assign {st : Setting} {text : String} (hs : s.assign st text = .ok s') :
    s'.draft.Accepted := by
  obtain ⟨d, hd, hs⟩ := exists_of_bind_eq_ok hs
  obtain ⟨d', hd', hs⟩ := exists_of_bind_eq_ok hs
  obtain rfl := Except.ok.inj hs
  exact (h.settle hd).assign hd'

theorem accepted_long {name : String} {value : Option String}
    (hs : s.long scope name value = .ok s') : s'.draft.Accepted := by
  unfold State.long at hs
  split at hs
  · exact nomatch hs
  · exact accepted_assign h hs
  · exact nomatch hs
  · exact accepted_react h hs

theorem accepted_short {cluster : List Char} (hs : s.short scope cluster = .ok s') :
    s'.draft.Accepted := by
  induction cluster generalizing s with
  | nil => exact Except.ok.inj hs ▸ h
  | cons letter rest ih =>
      unfold State.short at hs
      split at hs
      · exact nomatch hs
      · exact accepted_assign h hs
      · exact accepted_assign h hs
      · obtain ⟨t, ht, hs⟩ := exists_of_bind_eq_ok hs
        exact ih (accepted_react h ht) hs

theorem accepted_positional {text : String} (hs : s.positional scope text = .ok s') :
    s'.draft.Accepted := by
  unfold State.positional at hs
  split at hs
  · exact nomatch hs
  · exact nomatch hs
  · split at hs
    · exact nomatch hs
    · obtain ⟨d, hd, hs⟩ := exists_of_bind_eq_ok hs
      obtain rfl := Except.ok.inj hs
      exact h.settle hd
  · exact Except.ok.inj hs ▸ h
  · obtain ⟨d, hd, hs⟩ := exists_of_bind_eq_ok hs
    obtain rfl := Except.ok.inj hs
    exact h.settle hd

/-- **One argument**: what is accepted stays accepted. -/
theorem accepted_take {text : String} (hs : s.take scope text = .ok s') : s'.draft.Accepted := by
  unfold State.take at hs
  split at hs
  · exact accepted_long h hs
  · exact accepted_short h hs
  all_goals
    split at hs
    · exact Except.ok.inj hs ▸ h
    · exact accepted_positional h hs

end State

theorem accepted_foldlM_positional {scope : Scope} {args : List String} {s s' : State}
    (h : s.draft.Accepted) (hs : args.foldlM (State.positional scope) s = .ok s') :
    s'.draft.Accepted := by
  induction args generalizing s with
  | nil => exact Except.ok.inj hs ▸ h
  | cons text args ih =>
      rw [List.foldlM_cons] at hs
      obtain ⟨t, ht, hs⟩ := exists_of_bind_eq_ok hs
      exact ih (State.accepted_positional h ht) hs

/-- **All arguments after a command**: the draft that they come to is accepted. -/
theorem accepted_scan {scope : Scope} {args : List String} {s : State} {d : Draft}
    (h : s.draft.Accepted) (hs : scan scope s args = .ok d) : d.Accepted := by
  induction args generalizing s with
  | nil => exact h.settle hs
  | cons text args ih =>
      unfold scan at hs
      split at hs
      · obtain ⟨t, ht, hs⟩ := exists_of_bind_eq_ok hs
        exact (accepted_foldlM_positional h ht).settle hs
      · obtain ⟨t, ht, hs⟩ := exists_of_bind_eq_ok hs
        exact ih (State.accepted_take h ht) hs

/-! ## Command lines -/

theorem Draft.exists_path_of_toDisasm {d : Draft} {command : Command}
    (h : d.toDisasm = .ok command) :
    ∃ path, d.file = some path ∧ command = .disasm ⟨path, d.output, d.config⟩ := by
  obtain ⟨u, -, h⟩ := exists_of_bind_eq_ok h
  split at h
  · exact nomatch h
  · rename_i path hpath
    exact ⟨path, hpath, (Except.ok.inj h).symm⟩

theorem Draft.exists_words_of_toDecode {d : Draft} {command : Command}
    (h : d.toDecode = .ok command) : ∃ words registers, command = .decode words registers := by
  obtain ⟨u, -, h⟩ := exists_of_bind_eq_ok h
  split at h
  · exact nomatch h
  · exact ⟨d.words, d.registers, (Except.ok.inj h).symm⟩

theorem exists_of_finish {top : Draft} {scope : Scope} {toCommand : Draft → Except Issue Command}
    {rest : List String} {inv : Invocation} (h : finish top scope toCommand rest = .ok inv) :
    ∃ below, scan scope {} rest = .ok below ∧ toCommand below = .ok inv.command := by
  obtain ⟨below, hscan, h⟩ := exists_of_bind_eq_ok h
  obtain ⟨command, hcommand, h⟩ := exists_of_bind_eq_ok h
  obtain ⟨u, -, h⟩ := exists_of_bind_eq_ok h
  obtain rfl := Except.ok.inj h
  exact ⟨below, hscan, hcommand⟩

/-- What an accepted draft stands for are choices. -/
theorem Draft.Accepted.exists_choices {d : Draft} (h : d.Accepted) {path : String}
    (hpath : d.file = some path) (verbose silent : Bool) :
    ∃ c : DisasmChoices, c.invocation d.output =
      ⟨verbose, silent, .disasm ⟨path, d.output, d.config⟩⟩ := by
  have hbase : ∃ base : Option HexWord.Spelling, base.map HexWord.Spelling.word = d.base := by
    rcases d.base with _ | w
    · exact ⟨none, rfl⟩
    · obtain ⟨s, hs⟩ := HexWord.exists_spelling w
      exact ⟨some s, congrArg some hs⟩
  obtain ⟨base, hbase⟩ := hbase
  refine ⟨⟨path, h.file path hpath, d.format, d.onInvalid, d.isOn .abi, d.isOn .addresses, base,
    d.jobs, h.jobs, verbose, silent⟩, ?_⟩
  unfold DisasmChoices.invocation DisasmChoices.config Draft.config
  rw [hbase]
  rfl

/-- **Everything that is accepted is a choice**: a command line that lists a file stands for
choices, as does the command line that writes these choices out. -/
theorem exists_choices_of_parse {args : List String} {inv : Invocation} {options : DisasmOptions}
    (h : parse args = .ok inv) (hcommand : inv.command = .disasm options) :
    ∃ c : DisasmChoices, c.invocation options.output = inv ∧
      parse (c.arguments options.output) = .ok inv := by
  unfold parse at h
  -- the switches in front of the command may be any: all other values are read after it
  generalize ({} : State) = s at h
  induction args generalizing s with
  | nil => exact nomatch h
  | cons text rest ih =>
      unfold parseFrom at h
      split at h
      · obtain ⟨d, hscan, hd⟩ := exists_of_finish h
        obtain ⟨path, hpath, heq⟩ := Draft.exists_path_of_toDisasm hd
        have haccepted := accepted_scan Draft.Accepted.empty hscan
        obtain ⟨c, hc⟩ := haccepted.exists_choices hpath inv.verbose inv.silent
        obtain rfl := Command.disasm.inj (hcommand.symm.trans heq)
        rw [← hcommand] at hc
        exact ⟨c, hc, (c.parse_arguments haccepted.output).trans (congrArg Except.ok hc)⟩
      · obtain ⟨d, -, hd⟩ := exists_of_finish h
        obtain ⟨words, registers, heq⟩ := Draft.exists_words_of_toDecode hd
        exact nomatch hcommand.symm.trans heq
      · exact nomatch h
      · split at h
        · split at h <;> exact nomatch h
        · obtain ⟨t, -, h⟩ := exists_of_bind_eq_ok h
          exact ih t h

end RiscvListing.Usage
