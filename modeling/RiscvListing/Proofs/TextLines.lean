import RiscvListing.Text.Lines
import Mathlib

/-!
# Cutting text into lines

* `splitOn_flatMap_append`: pieces that are each followed by a separator can be told apart.
* `pieces_induction`: induction over the pieces between separators. There is one piece more than
  separators (`length_splitOn`), and none has a separator inside (`not_mem_of_mem_splitOn`).
* `cutLines`: the lines of a listing's bytes, each with its line end. The first bytes have the first
  lines (`cutLines_isPrefix_append`).
* `lines_append_cons`, `lines_of_not_mem`: the lines of a text, from its first line feed on. None
  has a line feed inside (`lineFeed_not_mem_of_mem_lines`).
-/

namespace RiscvListing

/-- Splitting at the separators gives the pieces back, and an empty piece after the last one. -/
theorem splitOn_flatMap_append {α : Type} [DecidableEq α] (sep : α) {pieces : List (List α)}
    (h : ∀ piece ∈ pieces, sep ∉ piece) :
    (pieces.flatMap (· ++ [sep])).splitOn sep = pieces ++ [[]] := by
  induction pieces with
  | nil => rfl
  | cons piece pieces ih =>
      have hrest := ih fun q hq => h q (List.mem_cons_of_mem piece hq)
      rw [List.flatMap_cons, List.append_assoc, List.singleton_append,
        List.splitOn_append_cons_self_of_not_mem (h piece List.mem_cons_self), hrest,
        List.cons_append]

/-- Induction over pieces: a list is one piece without separators, or such a piece, a separator and
a shorter list. -/
theorem pieces_induction {α : Type} (sep : α) {motive : List α → Prop}
    (last : ∀ piece, sep ∉ piece → motive piece)
    (next : ∀ piece rest, sep ∉ piece → motive rest → motive (piece ++ sep :: rest))
    (xs : List α) : motive xs := by
  induction hn : xs.length using Nat.strong_induction_on generalizing xs with
  | _ n ih =>
      by_cases hsep : sep ∈ xs
      · obtain ⟨piece, rest, rfl, hpiece⟩ := List.eq_append_cons_of_mem hsep
        have hshorter : rest.length < n := by
          rw [← hn, List.length_append, List.length_cons]
          omega
        exact next piece rest hpiece (ih rest.length hshorter rest rfl)
      · exact last xs hsep

/-- There is one piece more than separators. -/
theorem length_splitOn {α : Type} [DecidableEq α] (sep : α) (xs : List α) :
    (xs.splitOn sep).length = xs.count sep + 1 := by
  induction xs using pieces_induction sep with
  | last piece h => rw [List.splitOn_eq_singleton h, List.count_eq_zero_of_not_mem h]; rfl
  | next piece rest h ih =>
      rw [List.splitOn_append_cons_self_of_not_mem h, List.length_cons, ih, List.count_append,
        List.count_eq_zero_of_not_mem h, List.count_cons_self, Nat.zero_add]

/-- No piece has a separator inside. -/
theorem not_mem_of_mem_splitOn {α : Type} [DecidableEq α] {sep : α} {xs piece : List α}
    (h : piece ∈ xs.splitOn sep) : sep ∉ piece := by
  induction xs using pieces_induction sep with
  | last only honly =>
      rw [List.splitOn_eq_singleton honly] at h
      rwa [List.mem_singleton.mp h]
  | next first rest hfirst ih =>
      rw [List.splitOn_append_cons_self_of_not_mem hfirst] at h
      rcases List.mem_cons.mp h with rfl | h
      · exact hfirst
      · exact ih h

/-! ## Bytes -/

/-- The lines of a listing, each with the line feed at its end. -/
def cutLines (bytes : List UInt8) : List (List UInt8) :=
  (bytes.splitOn 0x0A).dropLast.map (· ++ [0x0A])

theorem cutLines_flatMap_append {pieces : List (List UInt8)}
    (h : ∀ piece ∈ pieces, 0x0A ∉ piece) :
    cutLines (pieces.flatMap (· ++ [0x0A])) = pieces.map (· ++ [0x0A]) := by
  rw [cutLines, splitOn_flatMap_append 0x0A h, List.dropLast_concat]

theorem cutLines_append_cons {piece : List UInt8} (h : 0x0A ∉ piece) (rest : List UInt8) :
    cutLines (piece ++ 0x0A :: rest) = (piece ++ [0x0A]) :: cutLines rest := by
  have hne : rest.splitOn 0x0A ≠ [] := List.splitOn_ne_nil 0x0A rest
  rw [cutLines, List.splitOn_append_cons_self_of_not_mem h, List.dropLast_cons_of_ne_nil hne,
    List.map_cons, cutLines]

/-- The lines of the first bytes come first; a line of which the end is missing does not count. -/
theorem cutLines_isPrefix_append (bytes more : List UInt8) :
    cutLines bytes <+: cutLines (bytes ++ more) := by
  induction bytes using pieces_induction (0x0A : UInt8) with
  | last piece h =>
      rw [cutLines, List.splitOn_eq_singleton h]
      exact List.nil_prefix
  | next piece rest h ih =>
      rw [List.append_assoc, List.cons_append, cutLines_append_cons h, cutLines_append_cons h]
      exact List.cons_prefix_cons.mpr ⟨rfl, ih⟩

/-! ## Text -/

/-- The first line ends at the first line feed. -/
theorem lines_append_cons {line : List Char} (h : '\n' ∉ line) (rest : List Char) :
    lines (line ++ '\n' :: rest) = dropReturn line :: lines rest := by
  have hsplit := List.splitOn_append_cons_self_of_not_mem h rest
  have hne : rest.splitOn '\n' ≠ [] := List.splitOn_ne_nil '\n' rest
  unfold lines
  rw [hsplit]
  dsimp only
  rw [List.dropLast_cons_of_ne_nil hne, List.map_cons, List.getLast?_cons_of_ne_nil hne,
    List.cons_append]

/-- A text without line feeds is one line, unless it is empty. -/
theorem lines_of_not_mem {line : List Char} (h : '\n' ∉ line) :
    lines line = if line.isEmpty then [] else [line] := by
  unfold lines
  rw [List.splitOn_eq_singleton h]
  cases line <;> rfl

theorem mem_of_mem_dropReturn {line : List Char} {c : Char} (h : c ∈ dropReturn line) :
    c ∈ line := by
  unfold dropReturn at h
  split at h
  · exact List.mem_of_mem_dropLast h
  · exact h

/-- No line has a line feed inside. -/
theorem lineFeed_not_mem_of_mem_lines {text line : List Char} (h : line ∈ lines text) :
    '\n' ∉ line := by
  unfold lines at h
  rcases List.mem_append.mp h with h | h
  · obtain ⟨piece, hpiece, rfl⟩ := List.mem_map.mp h
    exact fun hfeed =>
      not_mem_of_mem_splitOn (List.mem_of_mem_dropLast hpiece) (mem_of_mem_dropReturn hfeed)
  · have hlast : line ∈ (text.splitOn '\n').getLast? :=
      Option.mem_toList.mp (List.mem_of_mem_filter h)
    exact not_mem_of_mem_splitOn (List.mem_of_getLast? hlast)

end RiscvListing
