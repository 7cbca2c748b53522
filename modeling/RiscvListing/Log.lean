import RiscvListing.Event

/-!
# The log

Events are shown on the error stream, one line each, down to a chosen level.

* `LogFilter`, `LogFilter.shows`: which events are shown.
* `LogFilter.ofName?`, `LogFilter.usual`, `LogFilter.choose`: the filter that a user names, the one
  for the usual switches, and the one in force.
* `Event.logLine`: the line of an event.
-/

namespace RiscvListing

/-- The least important level that is shown, or none if no event is. -/
abbrev LogFilter := Option Level

namespace LogFilter

/-- Whether a filter shows the events of a level. -/
def shows (filter : LogFilter) (level : Level) : Bool :=
  filter.any fun least => level.rank ≤ least.rank

/-- The filter of a given name. -/
def ofName? : String → Option LogFilter
  | "off" => some none
  | "error" => some (some .error)
  | "warn" => some (some .warn)
  | "info" => some (some .info)
  | "debug" => some (some .debug)
  | "trace" => some (some .trace)
  | _ => none

/-- The filter when the user names none. -/
def usual (verbose silent : Bool) : LogFilter :=
  if verbose then some .debug else if silent then some .error else some .info

/-- The filter in force: the one that the user names, if there is one of that name, or else the
usual one. -/
def choose (name : Option String) (verbose silent : Bool) : LogFilter :=
  (name.bind ofName?).getD (usual verbose silent)

end LogFilter

/-- A field's value as a log line shows it. -/
def FieldValue.text : FieldValue → String
  | .number n => Numeral.natural n
  | .plain text => text
  | .quoted text => quote text

/-- The line of an event: the level in five columns, the message, and the fields by name. -/
def Event.logLine (event : Event) : String :=
  String.ofList (List.leftpad 5 ' ' event.level.name.toList) ++ " " ++ event.message ++
    String.join (event.fields.map fun (name, value) => " " ++ name ++ "=" ++ value.text)

end RiscvListing
