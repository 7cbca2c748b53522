import RiscvListing.Invocation

/-!
# The grammar of the command line

* `Usage.Issue`: why a command line is not carried out.
* `Usage.Scope`, `Usage.Subcommand`: the levels of the command line.
* `Usage.Switch`, `Usage.Setting`, `Usage.Entry`, `Usage.Scope.entries`: the options that each
  level understands.
* `Usage.Argument`: the forms of an argument.
-/

namespace RiscvListing.Usage

/-- Why a command line is not carried out. -/
inductive Issue where
  /-- The user asks for help. -/
  | displayHelp
  /-- The user asks for the version. -/
  | displayVersion
  /-- Nothing was given, so help is shown. -/
  | nothingGiven
  /-- An argument that is not understood. -/
  | unknownArgument
  /-- An option without its value, or a value that is not one of the choices. -/
  | invalidValue
  /-- A value that does not have the form it should have. -/
  | malformedValue
  /-- Arguments that exclude each other, or an option given twice. -/
  | conflict
  /-- A value for an option that takes none. -/
  | unwantedValue
  /-- A word that names no command. -/
  | unknownCommand
  /-- No command was given. -/
  | missingCommand
  /-- A command without an argument that it needs. -/
  | missingArgument
  deriving DecidableEq, Repr

/-- The exit code: asking for help or the version is no error. -/
def Issue.exitCode : Issue → Nat
  | .displayHelp | .displayVersion => 0
  | _ => 2

/-! ## Levels and options -/

/-- The levels of a command line. -/
inductive Scope where
  /-- Before the command. -/
  | top
  /-- After `disasm`. -/
  | disasm
  /-- After `decode`. -/
  | decode
  deriving DecidableEq, Repr

/-- The words that end the top level. -/
inductive Subcommand where
  | disasm
  | decode
  | help
  deriving DecidableEq, Repr

/-- The subcommand of a given name. -/
def Subcommand.ofName? : String → Option Subcommand
  | "disasm" => some .disasm
  | "decode" => some .decode
  | "help" => some .help
  | _ => none

/-- Options without a value. -/
inductive Switch where
  | verbose
  | silent
  | abi
  | addresses
  deriving DecidableEq, Repr

/-- Options with a value. -/
inductive Setting where
  | output
  | format
  | onInvalid
  | base
  | jobs
  deriving DecidableEq, Repr

/-- What an option stands for. -/
inductive Entry where
  | switch (switch : Switch)
  | setting (setting : Setting)
  | help
  | version
  deriving DecidableEq, Repr

/-- The options that every level understands, by letter and name. -/
def sharedEntries : List (Option Char × String × Entry) :=
  [(some 'v', "verbose", .switch .verbose), (some 's', "silent", .switch .silent),
    (some 'h', "help", .help)]

/-- The options that a level understands, by letter and name. -/
def Scope.entries : Scope → List (Option Char × String × Entry)
  | .top => sharedEntries ++ [(some 'V', "version", .version)]
  | .disasm => sharedEntries ++
    [(some 'o', "output", .setting .output), (none, "format", .setting .format),
      (none, "on-invalid", .setting .onInvalid), (none, "abi", .switch .abi),
      (none, "addresses", .switch .addresses), (none, "base", .setting .base),
      (some 'j', "jobs", .setting .jobs)]
  | .decode => sharedEntries ++ [(none, "abi", .switch .abi)]

/-- The option with a given name. -/
def Scope.long? (scope : Scope) (name : String) : Option Entry :=
  (scope.entries.find? fun (_, long, _) => long == name).map fun (_, _, entry) => entry

/-- The option with a given letter. -/
def Scope.short? (scope : Scope) (letter : Char) : Option Entry :=
  (scope.entries.find? fun (short, _, _) => short == some letter).map fun (_, _, entry) => entry

/-! ## Arguments -/

/-- The forms of an argument. -/
inductive Argument where
  /-- Two hyphens: no option follows. -/
  | separator
  /-- An option by name, with the value after an equals sign if there is one. -/
  | long (name : String) (value : Option String)
  /-- Options by letter, after one hyphen. -/
  | short (cluster : List Char)
  /-- Anything else; a single hyphen too. -/
  | plain
  deriving DecidableEq, Repr

/-- The form of an argument. -/
def Argument.ofString (text : String) : Argument :=
  match text.toList with
  | ['-', '-'] => .separator
  | '-' :: '-' :: rest =>
    let name := rest.takeWhile (· ≠ '=')
    let value := match rest.dropWhile (· ≠ '=') with
      | [] => none
      | _ :: value => some (String.ofList value)
    .long (String.ofList name) value
  | ['-'] => .plain
  | '-' :: cluster => .short cluster
  | _ => .plain

end RiscvListing.Usage
