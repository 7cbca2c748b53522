import RiscvListing.Failure

/-!
# Files and directories

The files that a command reads and writes, and the paths that lead to them.

* `Location`, `Node`: a place below the root, and what stands there.
* `Directory`: a working directory, with everything that paths lead to from there.
* `Directory.enter`, `Directory.locate`: a path is walked component by component.
* `Directory.readAt`, `Directory.read`: the contents of the file at a location or a path.
* `Directory.createIn`, `Directory.create`, `Directory.write`: finding the file that a path makes
  or replaces, and giving it its contents.
* `Directory.changes`: the files that differ from an earlier state.

Everyone may read and write everything, and there are neither links nor devices.
-/

namespace RiscvListing

/-- A place: the names on the way to it from the root. -/
abbrev Location := List String

/-- What stands at a location. -/
inductive Node where
  /-- A file. -/
  | file (contents : List UInt8)
  /-- A directory. -/
  | directory
  deriving DecidableEq, Repr

/-- A working directory, with everything that paths lead to from there. -/
structure Directory where
  /-- The working directory. It exists, and so do the directories on the way to it. -/
  here : Location
  /-- What stands at other locations. -/
  nodes : List (Location × Node)
  deriving DecidableEq, Repr

namespace Directory

/-- What stands at a location, if anything does. -/
def node? (d : Directory) (location : Location) : Option Node :=
  if location <+: d.here then some .directory else d.nodes.lookup location

/-- The contents of the file at a location. -/
def contents? (d : Directory) (location : Location) : Option (List UInt8) :=
  match d.node? location with
  | some (.file contents) => some contents
  | _ => none

/-- The longest file name, in bytes. -/
def maxNameLength : Nat := 255

/-- The longest path, in bytes. -/
def maxPathLength : Nat := 4095

/-- Goes from a place to one of its entries. Nothing lies below a file, and the root lies in
itself. -/
def enter (d : Directory) (place : Location) (component : String) : Except IoError Location :=
  match d.node? place with
  | none => .error .notFound
  | some (.file _) => .error .notADirectory
  | some .directory =>
    if component = "" ∨ component = "." then .ok place
    else if component = ".." then .ok place.dropLast
    else if maxNameLength < component.utf8ByteSize then .error .nameTooLong
    else if (d.node? (place ++ [component])).isSome then .ok (place ++ [component])
    else .error .notFound

/-- The components of a path, of which those at its end may be empty. -/
def components (path : String) : List String := (path.toList.splitOn '/').map String.ofList

/-- Refuses paths that no system call takes. -/
def checkPath (path : String) : Except IoError Unit :=
  if '\x00' ∈ path.toList then .error .nulInName
  else if path = "" then .error .notFound
  else if maxPathLength < path.utf8ByteSize then .error .nameTooLong
  else .ok ()

/-- The place where a path starts: the root or the working directory. -/
def origin (d : Directory) (path : String) : Location :=
  if path.toList.head? = some '/' then [] else d.here

/-- The location that a path leads to. -/
def locate (d : Directory) (path : String) : Except IoError Location := do
  checkPath path
  (components path).foldlM d.enter (d.origin path)

/-- The contents of what stands at a location. -/
def readAt (d : Directory) (location : Location) : Except IoError (List UInt8) :=
  match d.node? location with
  | none => .error .notFound
  | some .directory => .error .isADirectory
  | some (.file contents) => .ok contents

/-- The contents of the file at a path. -/
def read (d : Directory) (path : String) : Except IoError (List UInt8) := do
  d.readAt (← d.locate path)

/-- The components of a path, without the empty ones at its end. -/
def names (path : String) : List String := ((components path).reverse.dropWhile (· = "")).reverse

/-- The location of the file that a name makes or replaces in a directory. There `.`, `..` and a
name with a slash after it are names of directories, whatever the length of the name, and any other
name is one of a file, unless a directory has it. -/
def createIn (d : Directory) (parent : Location) (name : String) (slash : Bool) :
    Except IoError Location :=
  match d.node? parent with
  | none => .error .notFound
  | some (.file _) => .error .notADirectory
  | some .directory =>
    if name = "." ∨ name = ".." ∨ slash then .error .isADirectory
    else if maxNameLength < name.utf8ByteSize then .error .nameTooLong
    else if d.node? (parent ++ [name]) = some .directory then .error .isADirectory
    else .ok (parent ++ [name])

/-- The location of the file that a path makes or replaces. What comes before the last name must
lead to a directory. -/
def create (d : Directory) (path : String) : Except IoError Location := do
  checkPath path
  match (names path).getLast? with
  | none => throw .isADirectory
  | some name =>
    let parent ← (names path).dropLast.foldlM d.enter (d.origin path)
    d.createIn parent name ((names path).length < (components path).length)

/-- The files after the one at a location was given new contents. -/
def write (d : Directory) (location : Location) (contents : List UInt8) : Directory :=
  { d with nodes := (location, .file contents) :: d.nodes.filter (·.1 ≠ location) }

/-- The files of `after` that `before` does not have or has with other contents. -/
def changes (before after : Directory) : List (Location × List UInt8) :=
  after.nodes.filterMap fun
    | (_, .directory) => none
    | (location, .file contents) =>
      if before.contents? location = some contents then none else some (location, contents)

end Directory

end RiscvListing
