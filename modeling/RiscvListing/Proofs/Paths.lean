import RiscvListing.Directory
import Mathlib

/-!
# Paths and the files they lead to

What writing a file changes for the paths that lead to it, and that nothing changes for others.

* `Directory.node?_write`: a file that is written has the new contents, and nothing else changes.
* `Directory.enter_cases`: what one step of a path can do. Every place that a path comes to has
  directories above it (`Directory.Standing`, kept by one step and by a whole walk).
* `Directory.Takes d location`: a file stands at the location or can be made there. It is so where
  a path makes or replaces a file (`Directory.takes_of_create`), and a path that can be read can
  also be replaced (`Directory.exists_create_of_read`).
* `Directory.Meets d path location`: the path comes to the location, or would have to go on from it
  while nothing is there.
* **Reading after writing** (`Directory.read_write`, `Directory.read_write_of_meets`): paths that do
  not meet the file are read as before, and what is read at the others.
-/

namespace RiscvListing

namespace Directory

/-! ## Writing one file -/

/-- The first entry of a location is not lost with the entries of another one. -/
theorem lookup_filter_ne {location l : Location} (h : l ≠ location)
    (nodes : List (Location × Node)) :
    (nodes.filter (·.1 ≠ location)).lookup l = nodes.lookup l := by
  induction nodes with
  | nil => rfl
  | cons entry nodes ih =>
      obtain ⟨m, node⟩ := entry
      by_cases hm : m = location
      · have hl : (l == m) = false := beq_eq_false_iff_ne.mpr (hm ▸ h)
        rw [List.filter_cons_of_neg (by simpa using hm), ih, List.lookup_cons, hl]
      · rw [List.filter_cons_of_pos (by simpa using hm), List.lookup_cons, List.lookup_cons, ih]

/-- **Writing one file**: it has the new contents, and nothing else changes. -/
theorem node?_write {d : Directory} {location : Location} (h : ¬ location <+: d.here)
    (contents : List UInt8) (l : Location) :
    (d.write location contents).node? l =
      if l = location then some (.file contents) else d.node? l := by
  show (if l <+: d.here then _ else List.lookup l ((location, _) :: _)) = _
  by_cases hl : l = location
  · subst hl
    rw [if_neg h, if_pos rfl, List.lookup_cons_self]
  · rw [if_neg hl, List.lookup_cons, beq_eq_false_iff_ne.mpr hl]
    exact congrArg _ (lookup_filter_ne hl d.nodes)

/-! ## One step of a path -/

/-- The name stands for a file or a directory of its own. -/
structure IsName (name : String) : Prop where
  /-- It does not stay where it is. -/
  moves : ¬ (name = "" ∨ name = ".")
  /-- It does not go up. -/
  not_up : name ≠ ".."
  /-- It is not too long. -/
  fits : name.utf8ByteSize ≤ maxNameLength

/-- **What one step can do**: it stays, goes up, or goes to an entry that is there. -/
theorem enter_cases {d : Directory} {place next : Location} {component : String}
    (h : d.enter place component = .ok next) :
    d.node? place = some .directory ∧
      (next = place ∨ next = place.dropLast ∨
        IsName component ∧ next = place ++ [component] ∧ (d.node? next).isSome = true) := by
  unfold enter at h
  rcases hplace : d.node? place with _ | contents | _ <;> rw [hplace] at h <;> dsimp only at h
  · exact nomatch h
  · exact nomatch h
  · split_ifs at h with hstays hup hlong hsome <;> cases h
    · exact ⟨rfl, .inl rfl⟩
    · exact ⟨rfl, .inr (.inl rfl)⟩
    · exact ⟨rfl, .inr (.inr ⟨⟨hstays, hup, Nat.le_of_not_lt hlong⟩, rfl, hsome⟩)⟩

/-- A name is looked up in its directory. -/
theorem enter_of_isName {d : Directory} {place : Location} {name : String}
    (hplace : d.node? place = some .directory) (hname : IsName name) :
    d.enter place name =
      if (d.node? (place ++ [name])).isSome then .ok (place ++ [name]) else .error .notFound := by
  unfold enter
  rw [hplace]
  dsimp only
  rw [if_neg hname.moves, if_neg hname.not_up, if_neg (Nat.not_lt_of_le hname.fits)]

/-- Something is at the place, and all above it are directories. -/
structure Standing (d : Directory) (place : Location) : Prop where
  /-- Something is there. -/
  isSome : (d.node? place).isSome = true
  /-- What is above is a directory. -/
  above : ∀ p, p <+: place → p ≠ place → d.node? p = some .directory

theorem standing_of_isPrefix_here {d : Directory} {place : Location} (h : place <+: d.here) :
    d.Standing place where
  isSome := by rw [node?, if_pos h]; rfl
  above := fun _ hp _ => if_pos (hp.trans h)

theorem standing_origin (d : Directory) (path : String) : d.Standing (d.origin path) := by
  unfold origin
  split
  · exact standing_of_isPrefix_here List.nil_prefix
  · exact standing_of_isPrefix_here List.prefix_rfl

/-- The directory above a directory. -/
theorem Standing.dropLast {d : Directory} {place : Location} (h : d.Standing place)
    (hplace : d.node? place = some .directory) : d.node? place.dropLast = some .directory := by
  by_cases hroot : place.dropLast = place
  · rw [hroot, hplace]
  · exact h.above _ place.dropLast_prefix hroot

/-- One step keeps directories above. -/
theorem Standing.enter {d : Directory} {place next : Location} {component : String}
    (h : d.Standing place) (henter : d.enter place component = .ok next) : d.Standing next := by
  obtain ⟨hplace, rfl | rfl | ⟨-, rfl, hsome⟩⟩ := enter_cases henter
  · exact h
  · have hup := h.dropLast hplace
    refine ⟨by rw [hup]; rfl, fun p hp hne => ?_⟩
    by_cases heq : p = place
    · rw [heq, hplace]
    · exact h.above p (hp.trans place.dropLast_prefix) heq
  · refine ⟨hsome, fun p hp hne => ?_⟩
    rcases List.prefix_concat_iff.mp hp with heq | hp
    · exact absurd heq hne
    · by_cases heq : p = place
      · rw [heq, hplace]
      · exact h.above p hp heq

/-- A walk keeps directories above. -/
theorem Standing.foldlM {d : Directory} {components : List String} {place after : Location}
    (h : d.Standing place) (hwalk : components.foldlM d.enter place = .ok after) :
    d.Standing after := by
  induction components generalizing place with
  | nil =>
      obtain rfl : place = after := Except.ok.inj hwalk
      exact h
  | cons component components ih =>
      rw [List.foldlM_cons] at hwalk
      rcases henter : d.enter place component with e | next
      · rw [henter] at hwalk
        exact nomatch hwalk
      · rw [henter] at hwalk
        exact ih (h.enter henter) hwalk

/-! ## Whole paths -/

/-- A path that leads somewhere passes the check and is walked. -/
theorem of_locate_eq_ok {d : Directory} {path : String} {location : Location}
    (h : d.locate path = .ok location) :
    checkPath path = .ok () ∧
      (components path).foldlM d.enter (d.origin path) = .ok location := by
  unfold locate at h
  rcases hcheck : checkPath path with e | u
  · rw [hcheck] at h
    exact nomatch h
  · rw [hcheck] at h
    exact ⟨rfl, h⟩

/-- A walk in two parts. -/
theorem foldlM_append_eq_ok {d : Directory} {first rest : List String} {place after : Location}
    (h : (first ++ rest).foldlM d.enter place = .ok after) :
    ∃ between, first.foldlM d.enter place = .ok between ∧
      rest.foldlM d.enter between = .ok after := by
  rw [List.foldlM_append] at h
  rcases hfirst : first.foldlM d.enter place with e | between
  · rw [hfirst] at h
    exact nomatch h
  · rw [hfirst] at h
    exact ⟨between, rfl, h⟩

/-- A path that leads to a file comes to it by its name, from the directory that it is in. -/
theorem exists_last_of_locate {d : Directory} {path : String} {location : Location}
    (h : d.locate path = .ok location) (hfile : d.node? location ≠ some .directory) :
    ∃ first name place, components path = first ++ [name] ∧
      first.foldlM d.enter (d.origin path) = .ok place ∧ d.node? place = some .directory ∧
      IsName name ∧ place ++ [name] = location := by
  obtain ⟨-, hwalk⟩ := of_locate_eq_ok h
  rcases List.eq_nil_or_concat (components path) with hnil | ⟨first, name, hlast⟩
  · exact absurd (List.map_eq_nil_iff.mp hnil) (List.splitOn_ne_nil _ _)
  · rw [List.concat_eq_append] at hlast
    rw [hlast] at hwalk
    obtain ⟨place, hfirst, hname⟩ := foldlM_append_eq_ok hwalk
    have henter : d.enter place name = .ok location := (bind_pure _).symm.trans hname
    have hstanding := (standing_origin d path).foldlM hfirst
    obtain ⟨hplace, rfl | rfl | ⟨hisName, rfl, -⟩⟩ := enter_cases henter
    · exact absurd hplace hfile
    · exact absurd (hstanding.dropLast hplace) hfile
    · exact ⟨first, name, place, hlast, hfirst, hplace, hisName, rfl⟩

/-! ## Locations of files -/

/-- A file stands at the location, or can be made there. -/
def Takes (d : Directory) (location : Location) : Prop :=
  d.node? location ≠ some .directory ∧ ∃ parent name, location = parent ++ [name] ∧
    d.node? parent = some .directory ∧ IsName name

section

variable {d : Directory} {location : Location}

theorem Takes.not_isPrefix (h : d.Takes location) : ¬ location <+: d.here :=
  fun hhere => h.1 (if_pos hhere)

theorem Takes.node?_write (h : d.Takes location) (contents : List UInt8) (l : Location) :
    (d.write location contents).node? l =
      if l = location then some (.file contents) else d.node? l :=
  Directory.node?_write h.not_isPrefix contents l

theorem Takes.contents?_write (h : d.Takes location) (contents : List UInt8) (l : Location) :
    (d.write location contents).contents? l =
      if l = location then some contents else d.contents? l := by
  unfold contents?
  rw [h.node?_write]
  by_cases hl : l = location
  · rw [if_pos hl, if_pos hl]
  · rw [if_neg hl, if_neg hl]

/-- A file can be written again. -/
theorem Takes.write (h : d.Takes location) (contents : List UInt8) :
    (d.write location contents).Takes location := by
  obtain ⟨hfile, parent, name, rfl, hparent, hname⟩ := id h
  refine ⟨?_, parent, name, rfl, ?_, hname⟩
  · rw [h.node?_write, if_pos rfl]
    exact nofun
  · rw [h.node?_write, if_neg (by simp), hparent]

/-- The contents tell what is at such a location. -/
theorem Takes.node?_eq (h : d.Takes location) :
    d.node? location = (d.contents? location).map .file := by
  have hfile := h.1
  unfold contents?
  rcases hnode : d.node? location with _ | contents | _
  · rfl
  · rfl
  · exact absurd hnode hfile

/-- The last name of a path is not empty. -/
theorem ne_of_getLast?_names {path name : String} (h : (names path).getLast? = some name) :
    name ≠ "" := by
  have hhead := List.head?_dropWhile_not (fun component : String => decide (component = ""))
    (components path).reverse
  rw [names, List.getLast?_reverse] at h
  rw [h] at hhead
  exact of_decide_eq_false hhead

/-- Making or replacing a file, step by step. -/
theorem create_eq_ok_iff {path : String} :
    d.create path = .ok location ↔ checkPath path = .ok () ∧
      ∃ name parent, (names path).getLast? = some name ∧
        (names path).dropLast.foldlM d.enter (d.origin path) = .ok parent ∧
        d.createIn parent name ((names path).length < (components path).length) =
          .ok location := by
  unfold create
  rcases checkPath path with e | u
  · exact ⟨nofun, nofun⟩
  rcases (names path).getLast? with _ | name
  · exact ⟨nofun, fun ⟨_, _, _, h, _⟩ => nomatch h⟩
  rcases hwalk : (names path).dropLast.foldlM d.enter (d.origin path) with e | parent
  · simp [bind, Except.bind]
  · simp [bind, Except.bind]

/-- Where a path makes or replaces a file, one can stand. -/
theorem takes_of_create {path : String} (h : d.create path = .ok location) :
    d.Takes location := by
  obtain ⟨-, name, parent, hlast, -, hcreate⟩ := create_eq_ok_iff.mp h
  unfold createIn at hcreate
  rcases hparent : d.node? parent with _ | contents | _ <;> rw [hparent] at hcreate <;>
    dsimp only at hcreate
  · exact nomatch hcreate
  · exact nomatch hcreate
  · split_ifs at hcreate with hdirectory hlong hthere
    obtain ⟨hdot, hdots, -⟩ := not_or.mp hdirectory |>.imp id not_or.mp
    obtain rfl := Except.ok.inj hcreate
    refine ⟨hthere, parent, name, rfl, hparent, ?_, hdots, Nat.le_of_not_lt hlong⟩
    exact not_or.mpr ⟨ne_of_getLast?_names hlast, hdot⟩

end

/-- Reading a file, step by step. -/
theorem read_eq_ok_iff {d : Directory} {path : String} {contents : List UInt8} :
    d.read path = .ok contents ↔
      ∃ location, d.locate path = .ok location ∧ d.node? location = some (.file contents) := by
  unfold read
  rcases d.locate path with e | location
  · exact ⟨nofun, fun ⟨_, h, _⟩ => nomatch h⟩
  · show d.readAt location = _ ↔ _
    unfold readAt
    rcases hnode : d.node? location with _ | old | _ <;> simp [hnode]

/-- **A path that can be read can be replaced**: it leads to its file in both cases. -/
theorem exists_create_of_read {d : Directory} {path : String} {contents : List UInt8}
    (h : d.read path = .ok contents) :
    ∃ location, d.create path = .ok location ∧ d.contents? location = some contents := by
  obtain ⟨location, hlocate, hnode⟩ := read_eq_ok_iff.mp h
  have hfile : d.node? location ≠ some .directory := by
    rw [hnode]
    exact nofun
  obtain ⟨first, name, place, hlast, hfirst, hplace, hname, rfl⟩ :=
    exists_last_of_locate hlocate hfile
  have hempty : name ≠ "" := fun heq => hname.moves (.inl heq)
  have hnames : names path = first ++ [name] := by
    rw [names, hlast, List.reverse_append, List.reverse_singleton, List.singleton_append,
      List.dropWhile_cons_of_neg (by simpa using hempty), List.reverse_cons, List.reverse_reverse]
  refine ⟨place ++ [name], create_eq_ok_iff.mpr ⟨(of_locate_eq_ok hlocate).1, name, place, ?_⟩, ?_⟩
  · rw [hnames, hlast, List.getLast?_concat, List.dropLast_concat]
    refine ⟨rfl, hfirst, ?_⟩
    have hordinary : ¬ (name = "." ∨ name = ".." ∨
        decide ((first ++ [name]).length < (first ++ [name]).length) = true) := by
      simp [not_or.mp hname.moves, hname.not_up]
    unfold createIn
    rw [hplace]
    dsimp only
    rw [if_neg hordinary, if_neg (Nat.not_lt_of_le hname.fits), if_neg hfile]
  · rw [contents?, hnode]

example :
    let d : Directory := ⟨["w"], [(["w", "a.bin"], .file []), (["tmp"], .directory)]⟩
    d.create "/w/./a.bin" = .ok ["w", "a.bin"] ∧ d.create "../tmp/a.bin" = .ok ["tmp", "a.bin"] ∧
      d.create "/tmp" = .error .isADirectory ∧ d.create "a.bin/" = .error .isADirectory ∧
      d.create "new/a.bin" = .error .notFound ∧ d.create "a.bin/b" = .error .notADirectory := by
  decide

/-- The empty text is no path. -/
theorem ne_of_checkPath {path : String} (h : checkPath path = .ok ()) : path ≠ "" := by
  rintro rfl
  exact nomatch h

theorem ne_of_read {d : Directory} {path : String} {contents : List UInt8}
    (h : d.read path = .ok contents) : path ≠ "" := by
  obtain ⟨_, hlocate, -⟩ := read_eq_ok_iff.mp h
  exact ne_of_checkPath (of_locate_eq_ok hlocate).1

/-! ## Paths that meet a file -/

/-- The path comes to the location, with `rest` still to go. -/
def Reaches (d : Directory) (path : String) (location : Location) (rest : List String) : Prop :=
  checkPath path = .ok () ∧ ∃ first name place, components path = first ++ name :: rest ∧
    first.foldlM d.enter (d.origin path) = .ok place ∧ place ++ [name] = location

/-- The path comes to the location, or would have to go on from it while nothing is there. -/
def Meets (d : Directory) (path : String) (location : Location) : Prop :=
  ∃ rest, d.Reaches path location rest ∧ (rest = [] ∨ d.node? location = none)

section

variable {d : Directory} {location : Location}

/-- A step to such a location is a step by its name from its directory. -/
theorem Takes.enter (h : d.Takes location) {place : Location} {name : String}
    (hlocation : place ++ [name] = location) :
    d.enter place name =
      if (d.node? location).isSome then .ok location else .error .notFound := by
  obtain ⟨-, parent, last, rfl, hparent, hlast⟩ := h
  obtain ⟨rfl, hname⟩ := List.append_inj' hlocation rfl
  obtain rfl := List.singleton_inj.mp hname
  exact enter_of_isName hparent hlast

/-- **What is read at a path that comes to a location.** -/
theorem read_of_reaches (hlocation : d.Takes location) {path : String} {rest : List String}
    (h : d.Reaches path location rest) :
    d.read path = match d.contents? location with
      | none => .error .notFound
      | some contents => if rest = [] then .ok contents else .error .notADirectory := by
  obtain ⟨hcheck, first, name, place, hpath, hfirst, hplace⟩ := h
  have hnode := hlocation.node?_eq
  have hlocate : d.locate path = if (d.node? location).isSome then rest.foldlM d.enter location
      else .error .notFound := by
    unfold locate
    rw [hcheck, hpath, List.foldlM_append, hfirst]
    show (d.enter place name >>= fun next => rest.foldlM d.enter next) = _
    rw [hlocation.enter hplace]
    split <;> rfl
  unfold read
  rw [hlocate]
  rcases hold : d.contents? location with _ | contents <;> rw [hold] at hnode <;> rw [hnode]
  · rfl
  · rw [Option.map_some, Option.isSome_some, if_pos rfl]
    rcases rest with _ | ⟨component, rest⟩
    · show d.readAt location = .ok contents
      rw [readAt, hnode]
      rfl
    · have hbelow : d.enter location component = .error .notADirectory := by
        rw [Directory.enter, hnode]
        rfl
      rw [List.foldlM_cons, hbelow]
      rfl

/-! ## Reading after writing -/

/-- Writing a file changes where a step leads only if it makes the file. -/
theorem enter_write (hlocation : d.Takes location) (contents : List UInt8) {place : Location}
    {component : String} (hplace : (d.node? place).isSome = true)
    (h : place ++ [component] = location → (d.node? location).isSome = true) :
    (d.write location contents).enter place component = d.enter place component := by
  have hsome : ((d.write location contents).node? (place ++ [component])).isSome =
      (d.node? (place ++ [component])).isSome := by
    rw [hlocation.node?_write]
    split
    · rename_i heq
      rw [heq, h heq]
      rfl
    · rfl
  unfold Directory.enter
  rw [hlocation.node?_write, hsome]
  by_cases heq : place = location
  · -- nothing lies below the file, before and after
    rw [heq, hlocation.node?_eq, Option.isSome_map] at hplace
    obtain ⟨old, hold⟩ := Option.isSome_iff_exists.mp hplace
    have hfile : d.node? place = some (.file old) := by
      rw [heq, hlocation.node?_eq, hold]
      rfl
    rw [if_pos heq, hfile]
  · rw [if_neg heq]

/-- The same along a walk. -/
theorem foldlM_enter_write (hlocation : d.Takes location) (contents : List UInt8)
    {components : List String} {place : Location} (hplace : d.Standing place)
    (h : ∀ first name rest after, components = first ++ name :: rest →
      first.foldlM d.enter place = .ok after → after ++ [name] = location →
        (d.node? location).isSome = true) :
    components.foldlM (d.write location contents).enter place =
      components.foldlM d.enter place := by
  induction components generalizing place with
  | nil => rfl
  | cons component components ih =>
      have hstep : (d.write location contents).enter place component = d.enter place component :=
        enter_write hlocation contents hplace.isSome fun heq =>
          h [] component components place rfl rfl heq
      rw [List.foldlM_cons, List.foldlM_cons, hstep]
      rcases henter : d.enter place component with e | next
      · rfl
      · refine ih (hplace.enter henter) fun first name rest after hrest hfirst => ?_
        refine h (component :: first) name rest after (by rw [hrest, List.cons_append]) ?_
        rw [List.foldlM_cons, henter]
        exact hfirst

/-- A path that comes to a file does so whatever is written to it. -/
theorem Reaches.write (hlocation : d.Takes location) {path : String} {rest : List String}
    (h : d.Reaches path location rest) (contents : List UInt8) :
    (d.write location contents).Reaches path location rest := by
  obtain ⟨hcheck, first, name, place, hpath, hfirst, hplace⟩ := h
  refine ⟨hcheck, first, name, place, hpath, Eq.trans ?_ hfirst, hplace⟩
  refine foldlM_enter_write hlocation contents (standing_origin d path) ?_
  -- the walk went through, so nothing was missing on its way
  rintro before middle after between rfl hbefore hmiddle
  obtain ⟨_, hbetween, hafter⟩ := foldlM_append_eq_ok hfirst
  obtain rfl := Except.ok.inj (hbefore.symm.trans hbetween)
  rw [List.foldlM_cons, hlocation.enter hmiddle] at hafter
  by_contra hnone
  rw [if_neg hnone] at hafter
  exact nomatch hafter

/-- **A path that meets a file** is read as that file once it is written, or cannot be read because
it goes on from there; before, it was read as the file that was there. -/
theorem read_write_of_meets (hlocation : d.Takes location) {path : String}
    (h : d.Meets path location) (contents : List UInt8) :
    (∃ old, d.contents? location = some old ∧ d.read path = .ok old ∧
      (d.write location contents).read path = .ok contents) ∨
    (d.contents? location = none ∧ d.read path = .error .notFound ∧
      ((d.write location contents).read path = .ok contents ∨
        (d.write location contents).read path = .error .notADirectory)) := by
  obtain ⟨rest, hreaches, hrest⟩ := h
  have hbefore := read_of_reaches hlocation hreaches
  have hafter := read_of_reaches (hlocation.write contents) (hreaches.write hlocation contents)
  rw [hlocation.contents?_write, if_pos rfl] at hafter
  rw [hlocation.node?_eq, Option.map_eq_none_iff] at hrest
  rcases hold : d.contents? location with _ | old <;> rw [hold] at hbefore hrest
  · refine .inr ⟨rfl, hbefore, ?_⟩
    rw [hafter]
    by_cases hend : rest = []
    · exact .inl (if_pos hend)
    · exact .inr (if_neg hend)
  · have hend : rest = [] := hrest.resolve_right nofun
    rw [hend] at hbefore hafter
    exact .inl ⟨old, rfl, hbefore, hafter⟩

/-- **A path that does not meet a file** is read as before, whatever is written to it. -/
theorem read_write (hlocation : d.Takes location) {path : String} (h : ¬ d.Meets path location)
    (contents : List UInt8) : (d.write location contents).read path = d.read path := by
  rcases hcheck : checkPath path with e | u
  · unfold read locate
    rw [hcheck]
    rfl
  have hlocate : (d.write location contents).locate path = d.locate path := by
    unfold locate
    rw [hcheck]
    refine foldlM_enter_write hlocation contents (standing_origin d path) ?_
    intro first name rest after hpath hfirst hafter
    by_contra hnone
    exact h ⟨rest, ⟨hcheck, first, name, after, hpath, hfirst, hafter⟩,
      .inr (Option.not_isSome_iff_eq_none.mp hnone)⟩
  unfold read
  rw [hlocate]
  rcases hlocated : d.locate path with e | l
  · rfl
  · have hl : l ≠ location := by
      rintro rfl
      obtain ⟨first, name, place, hpath, hfirst, -, -, hplace⟩ :=
        exists_last_of_locate hlocated hlocation.1
      exact h ⟨[], ⟨hcheck, first, name, place, hpath, hfirst, hplace⟩, .inl rfl⟩
    show (d.write location contents).readAt l = d.readAt l
    rw [readAt, hlocation.node?_write, if_neg hl, readAt]

end

end Directory

end RiscvListing
