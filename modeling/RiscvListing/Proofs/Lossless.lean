import RiscvListing.Proofs.Session
import RiscvListing.Proofs.TextLines
import RiscvListing.Proofs.WordLines

/-!
# Marked listings lose nothing

A listing that marks rejected words and shows no addresses can be cut into its lines again, and each
line determines its word, environment calls apart.

* `Listing.lineBytes_mark`: the bytes of a marked listing are those of the lines of its words, each
  with its line end.
* `Listing.splitOn_linesOf`: splitting at the line ends gives the lines back.
* **Nothing is lost** (`Listing.mark_lossless`).
-/

namespace RiscvListing

namespace Listing

/-! ## The bytes of a marked listing -/

/-- The lines of words, each with its line end. -/
def linesOf (names : RegisterNames) (words : List Word) : List Char :=
  words.flatMap fun w => (wordText names w).toList ++ ['\n']

/-- The bytes of a listing that marks rejected words and shows no addresses are those of its
lines. -/
theorem lineBytes_mark {config : Config} (hmark : config.onInvalid = .mark)
    (haddr : config.addresses = false) (words : List Word) :
    lineBytes (wordActions config words) = Utf8.encode (linesOf config.registers words) := by
  have hexact : AddressesExact config words.length := fun hshown => by simp [haddr] at hshown
  have hline : ∀ p : Word × Nat, (indexedLine config p).toList =
      (wordText config.registers p.1).toList ++ ['\n'] := by
    intro p
    rw [indexedLine_eq, lineText, exactColumns, haddr, if_neg Bool.false_ne_true]
    simp
  calc lineBytes (wordActions config words)
      = words.zipIdx.flatMap fun p => Utf8.encode (indexedLine config p).toList := by
        rw [lineBytes_of_mark hmark hexact, bytesOf, List.flatMap_map]
    _ = (words.zipIdx.map Prod.fst).flatMap fun w =>
          Utf8.encode ((wordText config.registers w).toList ++ ['\n']) := by
        rw [List.flatMap_map]
        exact List.flatMap_congr fun p _ => congrArg Utf8.encode (hline p)
    _ = Utf8.encode (linesOf config.registers words) := by
        rw [List.zipIdx_map_fst]
        exact List.flatMap_assoc.symm

/-! ## Cutting a listing into its lines -/

/-- Splitting at the line ends gives the lines back, and an empty text after the last one. -/
theorem splitOn_linesOf (names : RegisterNames) (words : List Word) :
    (linesOf names words).splitOn '\n' =
      words.map (fun w => (wordText names w).toList) ++ [[]] := by
  have hline : ∀ piece ∈ words.map fun w => (wordText names w).toList, '\n' ∉ piece := by
    intro piece hpiece hmem
    obtain ⟨w, -, rfl⟩ := List.mem_map.mp hpiece
    exact absurd (isText_wordText names w _ hmem) (by decide)
  have hsplit := splitOn_flatMap_append '\n' hline
  rwa [List.flatMap_map] at hsplit

/-- The lines can be told apart. -/
theorem map_wordText_eq_of_linesOf_eq {names : RegisterNames} {ws vs : List Word}
    (h : linesOf names ws = linesOf names vs) :
    ws.map (wordText names) = vs.map (wordText names) := by
  have hlines := congrArg (List.splitOn '\n') h
  rw [splitOn_linesOf, splitOn_linesOf, List.append_left_inj] at hlines
  apply (List.map_inj_right fun _ _ => String.toList_inj.mp).mp
  rw [List.map_map, List.map_map]
  exact hlines

/-! ## Marked listings -/

/-- A marked listing on a sink with room for it writes the lines of its words. -/
theorem written_run_mark {config : Config} (hmark : config.onInvalid = .mark)
    (haddr : config.addresses = false) (machine : Machine) {sink : Sink} (hadv : sink.Advances)
    (hroom : sink.room = none) (words : List Word) :
    (run config machine sink words).written = Utf8.encode (linesOf config.registers words) := by
  have hcut := (run_cutTo config machine hadv words).1.written
  have hideal := (run_unlimited config machine words (.inl haddr)).1
  rw [hroom, Option.getD_none, Nat.min_self, List.take_length] at hcut
  rw [hcut, hideal]
  exact lineBytes_mark hmark haddr words

/-- **A marked listing loses nothing but environment calls**: if the listings of two lists of words,
with rejected words marked and without addresses, have the same bytes, the lists have the same
length and differ at most where both have the opcode of environment calls. -/
theorem mark_lossless {config : Config} (hmark : config.onInvalid = .mark)
    (haddr : config.addresses = false) (machine : Machine) {sink : Sink} (hadv : sink.Advances)
    (hroom : sink.room = none) {ws vs : List Word}
    (h : (run config machine sink ws).written = (run config machine sink vs).written) :
    ws.length = vs.length ∧
      ∀ (i : Nat) (w v : Word), ws[i]? = some w → vs[i]? = some v →
        w = v ∨ Word.opcode w = Opcode.system ∧ Word.opcode v = Opcode.system := by
  rw [written_run_mark hmark haddr machine hadv hroom,
    written_run_mark hmark haddr machine hadv hroom] at h
  have htexts := map_wordText_eq_of_linesOf_eq (Utf8.encode_injective h)
  constructor
  · simpa only [List.length_map] using congrArg List.length htexts
  · intro i w v hw hv
    have htext := congrArg (·[i]?) htexts
    simp only [List.getElem?_map, hw, hv, Option.map_some, Option.some.injEq] at htext
    exact eq_or_system_of_wordText_eq htext

/-- Two environment calls with different bits give the same line, so their lists cannot be told
apart; the rejected word after them can. -/
theorem mark_lossless_up_to_ecall :
    let config : Config := { registers := .abi }
    let machine : Machine := { processors := 2 }
    let ws : List Word := [0x00000073, 0xFFFFFFFF]
    let vs : List Word := [0x00100073, 0xFFFFFFFF]
    config.onInvalid = .mark ∧ config.addresses = false ∧ Sink.Advances {} ∧
    (run config machine {} ws).written = (run config machine {} vs).written ∧
    ∀ (i : Nat) (w v : Word), ws[i]? = some w → vs[i]? = some v →
      w = v ∨ Word.opcode w = Opcode.system ∧ Word.opcode v = Opcode.system := by
  intro config machine ws vs
  have hadv : Sink.Advances {} := by decide
  have hlines : linesOf .abi ws = linesOf .abi vs := by decide
  have hbytes : (run config machine {} ws).written = (run config machine {} vs).written := by
    rw [written_run_mark rfl rfl machine hadv rfl, written_run_mark rfl rfl machine hadv rfl]
    exact congrArg Utf8.encode hlines
  exact ⟨rfl, rfl, hadv, hbytes, (mark_lossless rfl rfl machine hadv rfl hbytes).2⟩

end Listing

end RiscvListing
