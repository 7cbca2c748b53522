import RiscvListing.Instruction.Record

/-!
# Records in a sink that fills up

A record is written piece by piece. What a sink keeps of it depends on the text and on the room, not
on the pieces.

* `CharSink.write_append_of_fits`, `CharSink.write_append_of_full`: writing two texts one after the
  other, with the second left out if the first does not fit, is writing both at once.
* **Pieces** (`CharSink.writePieces_eq_write_join`): pieces come to one write of their text. After
  the first piece that does not fit nothing is written, and there would be no room for it.
* **The renderings of an instruction agree** (`Instruction.write_agrees_with_record`).
-/

namespace RiscvListing

namespace CharSink

/-! ## One piece -/

/-- The sink keeps the characters that there is room for. -/
@[simp] theorem kept_write (sink : CharSink) (piece : String) :
    (sink.write piece).1.kept = sink.kept ++ piece.toList.take sink.room := rfl

@[simp] theorem room_write (sink : CharSink) (piece : String) :
    (sink.write piece).1.room = sink.room - piece.toList.length := rfl

/-- A write succeeds if there is room for the whole piece. -/
theorem snd_write_eq_true_iff (sink : CharSink) (piece : String) :
    (sink.write piece).2 = true ↔ piece.toList.length ≤ sink.room := decide_eq_true_iff

theorem snd_write_eq_false_iff (sink : CharSink) (piece : String) :
    (sink.write piece).2 = false ↔ sink.room < piece.toList.length := by
  rw [← Bool.not_eq_true, snd_write_eq_true_iff, Nat.not_le]

/-- A piece that fits leaves the rest of the room to the next one. -/
theorem write_append_of_fits {sink : CharSink} {piece : String}
    (h : piece.toList.length ≤ sink.room) (next : String) :
    sink.write (piece ++ next) = (sink.write piece).1.write next := by
  apply Prod.ext
  · simp only [CharSink.write, mk.injEq, String.toList_append, List.length_append]
    constructor
    · rw [Nat.sub_sub]
    · rw [List.take_append, List.take_of_length_le h, List.append_assoc]
  · apply Bool.eq_iff_iff.mpr
    rw [snd_write_eq_true_iff, snd_write_eq_true_iff, String.toList_append, List.length_append,
      room_write]
    omega

/-- A piece that does not fit leaves no room for anything after it. -/
theorem write_append_of_full {sink : CharSink} {piece : String}
    (h : sink.room < piece.toList.length) (next : String) :
    sink.write (piece ++ next) = sink.write piece := by
  apply Prod.ext
  · simp only [CharSink.write, mk.injEq, String.toList_append, List.length_append]
    constructor
    · omega
    · rw [List.take_append_of_le_length (Nat.le_of_lt h)]
  · apply Bool.eq_iff_iff.mpr
    rw [snd_write_eq_true_iff, snd_write_eq_true_iff, String.toList_append, List.length_append]
    omega

/-! ## Many pieces -/

/-- **Pieces come to one write of their text**, wherever the sink fills up. -/
theorem writePieces_eq_write_join (sink : CharSink) (pieces : List String) :
    sink.writePieces pieces = sink.write (String.join pieces) := by
  induction pieces generalizing sink with
  | nil => simp [writePieces, CharSink.write]
  | cons piece rest ih =>
      rw [writePieces, String.join_cons]
      split
      -- the rest is written into a sink with less room, which is why the sink is generalized
      · rename_i after hwrite
        have hfits := (snd_write_eq_true_iff sink piece).mp (congrArg Prod.snd hwrite)
        rw [write_append_of_fits hfits, hwrite, ih]
      · rename_i after hwrite
        have hfull := (snd_write_eq_false_iff sink piece).mp (congrArg Prod.snd hwrite)
        rw [write_append_of_full hfull, hwrite]

end CharSink

/-! ## Whole records -/

namespace Instruction

/-- The pieces of a record, with its line end, are the record. -/
theorem join_pieces_append (i : Instruction) (names : RegisterNames) :
    String.join (i.pieces names ++ ["\n"]) = i.record names := by
  simp [record, text]

/-- Writing a record piece by piece is writing it at once. -/
theorem write_eq_write_record (i : Instruction) (names : RegisterNames) (sink : CharSink) :
    i.write names sink = sink.write (i.record names) := by
  rw [Instruction.write, CharSink.writePieces_eq_write_join, join_pieces_append]

/-- **The renderings of an instruction agree**, also where the sink fills up: a sink with room for
so many characters keeps the first ones of the record, as many as fit, and the write succeeds
exactly if the whole record fits, line end included. Cutting the record into other pieces makes no
difference. The text with numeric names is the record without its line end. -/
theorem write_agrees_with_record (i : Instruction) (names : RegisterNames) (capacity : Nat) :
    let characters := (i.record names).toList
    let written := i.write names { room := capacity }
    written.1.kept = characters.take (min capacity characters.length) ∧
      (written.2 = true ↔ characters.length ≤ capacity) ∧
      (∀ pieces, String.join pieces = i.record names →
        CharSink.writePieces { room := capacity } pieces = written) ∧
      i.text .numeric ++ "\n" = i.record .numeric := by
  intro characters written
  have hwritten : written = CharSink.write { room := capacity } (i.record names) :=
    write_eq_write_record i names _
  refine ⟨?_, ?_, ?_, rfl⟩
  · rw [hwritten, CharSink.kept_write, ← List.take_eq_take_min]
    exact List.nil_append _
  · rw [hwritten]
    exact CharSink.snd_write_eq_true_iff _ _
  · intro pieces hpieces
    rw [CharSink.writePieces_eq_write_join, hpieces, hwritten]

/-- A store with a register that does not exist, written into a sink that is full after the minus
sign of its offset; the sign and the digits may be pieces of their own. -/
theorem write_agrees_with_record_cut_at_sign :
    let i : Instruction := ⟨0, .sw, .store 2 40 (-4)⟩
    let pieces := ["sw", "\t", "x", "40", ", ", "-", "4", "(", "x", "2", ")", "\n"]
    String.join pieces = i.record .numeric ∧
      CharSink.writePieces { room := 9 } pieces = i.write .numeric { room := 9 } ∧
      (i.write .numeric { room := 9 }).1.kept = "sw\tx40, -".toList := by
  intro i pieces
  have hpieces : String.join pieces = i.record .numeric := by decide
  obtain ⟨hkept, -, hcut, -⟩ := write_agrees_with_record i .numeric 9
  refine ⟨hpieces, hcut pieces hpieces, ?_⟩
  rw [hkept]
  decide

end Instruction

end RiscvListing
