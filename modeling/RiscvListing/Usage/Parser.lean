import RiscvListing.Usage.Draft

/-!
# Understanding the command line

* `Usage.State`, `Usage.State.take`: one level, argument by argument.
* `Usage.scan`: the arguments after the command.
* `Usage.Draft.toDisasm`, `Usage.Draft.toDecode`: the commands that a finished draft stands for.
* `Usage.parse`: the invocation of a whole command line.

Mistakes are reported in the order they are met. The arguments after the command are checked in
full before the switches in front of it.
-/

namespace RiscvListing.Usage

/-- A level that is being read. -/
structure State where
  /-- What has been accepted. -/
  draft : Draft := {}
  /-- What waits to be checked. -/
  pending : Pending := .nothing
  deriving DecidableEq, Repr

namespace State

/-- Accepts what waits. -/
def settled (s : State) : Except Issue Draft := s.draft.settle s.pending

/-! ## Options -/

/-- An option that takes no value. -/
def react (s : State) : Entry → Except Issue State
  | .switch switch => do return { draft := ← (← s.settled).turnOn switch }
  | .help => do
    discard s.settled
    throw .displayHelp
  | .version => do
    discard s.settled
    throw .displayVersion
  | .setting setting => do return ⟨← s.settled, .awaiting setting⟩

/-- An option with its value in the same argument. -/
def assign (s : State) (setting : Setting) (text : String) : Except Issue State := do
  return { draft := ← (← s.settled).assign setting text }

/-- An option by name. An unknown name is reported before anything that waits. -/
def long (scope : Scope) (s : State) (name : String) (value : Option String) :
    Except Issue State :=
  match scope.long? name, value with
  | none, _ => .error .unknownArgument
  | some (.setting setting), some text => s.assign setting text
  | some _, some _ => .error .unwantedValue
  | some entry, none => s.react entry

/-- Options by letter. The letters after one that takes a value are its value, without an equals
sign in front. -/
def short (scope : Scope) (s : State) : List Char → Except Issue State
  | [] => .ok s
  | letter :: rest =>
    match scope.short? letter, rest with
    | none, _ => .error .unknownArgument
    | some (.setting setting), '=' :: text => s.assign setting (String.ofList text)
    | some (.setting setting), c :: text => s.assign setting (String.ofList (c :: text))
    | some entry, _ => do short scope (← s.react entry) rest

/-! ## Other arguments -/

/-- An argument that is neither an option nor the value of one. -/
def positional (scope : Scope) (s : State) (text : String) : Except Issue State :=
  match scope, s.pending with
  | .top, _ => .error .unknownCommand
  | .disasm, .file _ => .error .unknownArgument
  | .disasm, _ =>
    if s.draft.file.isSome then .error .unknownArgument
    else do return ⟨← s.settled, .file text⟩
  | .decode, .words texts => .ok { s with pending := .words (texts ++ [text]) }
  | .decode, _ => do return ⟨← s.settled, .words [text]⟩

/-- An argument in front of any separator; a setting without a value takes it unless it is an
option. -/
def take (scope : Scope) (s : State) (text : String) : Except Issue State :=
  match Argument.ofString text with
  | .long name value => s.long scope name value
  | .short cluster => s.short scope cluster
  | .separator | .plain =>
    match s.pending with
    | .awaiting setting => .ok { s with pending := .value setting text }
    | _ => s.positional scope text

end State

/-! ## One level -/

/-- The arguments after a command. After a separator there are no options. -/
def scan (scope : Scope) : State → List String → Except Issue Draft
  | s, [] => s.settled
  | s, text :: rest =>
    if Argument.ofString text = .separator then do
      (← rest.foldlM (State.positional scope) s).settled
    else do scan scope (← s.take scope text) rest

/-- The shared switches exclude each other. -/
def Draft.checkSwitches (d : Draft) : Except Issue Unit :=
  if d.isOn .verbose && d.isOn .silent then .error .conflict else .ok ()

/-- The register spelling that a draft asks for. -/
def Draft.registers (d : Draft) : RegisterNames := if d.isOn .abi then .abi else .numeric

/-- The choices for a listing that a draft asks for. -/
def Draft.config (d : Draft) : Config where
  inputFormat := d.format.getD .binary
  onInvalid := d.onInvalid.getD .mark
  registers := d.registers
  addresses := d.isOn .addresses
  base := d.base.getD 0
  jobs := d.jobs.getD 0

/-- The command that a finished draft stands for after `disasm`. -/
def Draft.toDisasm (d : Draft) : Except Issue Command := do
  d.checkSwitches
  match d.file with
  | none => throw .missingArgument
  | some path => return .disasm ⟨path, d.output, d.config⟩

/-- The command that a finished draft stands for after `decode`. -/
def Draft.toDecode (d : Draft) : Except Issue Command := do
  d.checkSwitches
  if d.words.isEmpty then throw .missingArgument
  return .decode d.words d.registers

/-! ## The whole line -/

/-- Help about a command: each word must name a command of the one before it, and only the top
level has commands. -/
def helpTopic : List String → Issue
  | [] => .displayHelp
  | [topic] => if (Subcommand.ofName? topic).isSome then .displayHelp else .unknownCommand
  | _ => .unknownCommand

/-- Completes an invocation: the command's own arguments come first, then the switches in front of
it. -/
def finish (top : Draft) (scope : Scope) (toCommand : Draft → Except Issue Command)
    (rest : List String) : Except Issue Invocation := do
  let below ← scan scope {} rest
  let command ← toCommand below
  top.checkSwitches
  return { verbose := top.isOn .verbose || below.isOn .verbose
           silent := top.isOn .silent || below.isOn .silent
           command := command }

/-- A command line that ends before a command. -/
def withoutCommand (top : Draft) : Issue :=
  if top.switches.isEmpty then .nothingGiven else .missingCommand

/-- The top level. The first word that names a command ends it. -/
def parseFrom (s : State) : List String → Except Issue Invocation
  | [] => .error (withoutCommand s.draft)
  | text :: rest =>
    match Subcommand.ofName? text with
    | some .disasm => finish s.draft .disasm Draft.toDisasm rest
    | some .decode => finish s.draft .decode Draft.toDecode rest
    | some .help => .error (helpTopic rest)
    | none =>
      if Argument.ofString text = .separator then
        match rest with
        | [] => .error (withoutCommand s.draft)
        | word :: _ =>
          .error (if (Subcommand.ofName? word).isSome then .unknownArgument else .unknownCommand)
      else do parseFrom (← s.take .top text) rest

/-- The invocation that a command line stands for. -/
def parse (args : List String) : Except Issue Invocation := parseFrom {} args

end RiscvListing.Usage
