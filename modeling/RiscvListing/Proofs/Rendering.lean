import RiscvListing.Proofs.Binary
import RiscvListing.Proofs.HexText
import RiscvListing.Proofs.Utf8

/-!
# Renderings of a program

A program may be written as hexadecimal text in many ways: with blanks, comments, empty lines and
either line end.

* `whiteSpace`: the code points of white space.
* `Blanks`, `Comment`, `LineEnd`: what may surround the words. Comments are bytes and need not be
  text.
* `RenderedLine`: a line with a word or without one. It is one line
  (`RenderedLine.lineFeed_not_mem_bytes`), and the reader finds exactly its word
  (`RenderedLine.lineWord_decode`).
* `Rendering`: lines with their line ends, and perhaps a last one without.
* **Renderings read back** (`rendering_reads_back`): every rendering is read as its words, and so
  are their little-endian bytes; every list of words has a rendering.
-/

namespace RiscvListing

/-! ## What surrounds the words -/

/-- The code points of white space. -/
def whiteSpace : List Nat :=
  [0x09, 0x0A, 0x0B, 0x0C, 0x0D, 0x20, 0x85, 0xA0, 0x1680, 0x2000, 0x2001, 0x2002, 0x2003, 0x2004,
    0x2005, 0x2006, 0x2007, 0x2008, 0x2009, 0x200A, 0x2028, 0x2029, 0x202F, 0x205F, 0x3000]

/-- The blanks are the white space. -/
theorem isBlank_iff (c : Char) : isBlank c = true ↔ c.toNat ∈ whiteSpace := by
  unfold isBlank whiteSpace
  simp
  omega

/-- White space inside a line. -/
structure Blanks where
  /-- The characters. -/
  chars : List Char
  /-- They are white space. -/
  white : ∀ c ∈ chars, c.toNat ∈ whiteSpace
  /-- None of them ends the line. -/
  inside : '\n' ∉ chars

/-- What follows the `#` of a comment: any bytes that do not end the line. -/
structure Comment where
  /-- The bytes, which need not be text. -/
  bytes : List UInt8
  /-- None of them ends the line. -/
  inside : 0x0A ∉ bytes

/-- The end of a line. -/
inductive LineEnd where
  /-- A line feed. -/
  | lineFeed
  /-- A carriage return and a line feed. -/
  | returnLineFeed
  deriving DecidableEq, Repr

/-- The bytes of a line end before its line feed. -/
def LineEnd.lead : LineEnd → List UInt8
  | .lineFeed => []
  | .returnLineFeed => [0x0D]

/-- A line of a rendering, without its end. -/
structure RenderedLine where
  /-- The blanks at the start. -/
  before : Blanks
  /-- A word, if there is one, with the blanks after it. -/
  code : Option (HexWord.Spelling × Blanks)
  /-- The comment, if there is one. -/
  comment : Option Comment

namespace RenderedLine

/-- The characters of a line before its comment. -/
def text (l : RenderedLine) : List Char :=
  l.before.chars ++
    match l.code with
    | none => []
    | some (spelling, after) => spelling.text ++ after.chars

/-- The bytes of a line. -/
def bytes (l : RenderedLine) : List UInt8 :=
  Utf8.encode l.text ++
    match l.comment with
    | none => []
    | some comment => 0x23 :: comment.bytes

/-- The word of a line, if there is one. -/
def word? (l : RenderedLine) : Option Word := l.code.map fun c => c.1.word

theorem isBlank_of_mem_blanks {b : Blanks} {c : Char} (h : c ∈ b.chars) : isBlank c = true :=
  (isBlank_iff c).mpr (b.white c h)

/-- A line is one line before its comment. -/
theorem lineFeed_not_mem_text (l : RenderedLine) : '\n' ∉ l.text := by
  intro h
  rcases List.mem_append.mp h with h | h
  · exact l.before.inside h
  · split at h
    · exact nomatch h
    · rename_i spelling after _
      rcases List.mem_append.mp h with h | h
      · exact absurd (HexWord.not_blank_of_mem_text h).1 (by decide)
      · exact after.inside h

/-- A line is one line. -/
theorem lineFeed_not_mem_bytes (l : RenderedLine) : 0x0A ∉ l.bytes := by
  intro h
  rcases List.mem_append.mp h with h | h
  · exact l.lineFeed_not_mem_text (Utf8.mem_encode_of_ascii (by decide) h)
  · split at h
    · exact nomatch h
    · rename_i comment _
      rcases List.mem_cons.mp h with h | h
      · exact absurd h (by decide)
      · exact comment.inside h

/-- Reading a line gives its text, and whatever its comment reads as. -/
theorem exists_decode_bytes (l : RenderedLine) :
    ∃ comment, Utf8.decode l.bytes = l.text ++ comment ∧
      (comment = [] ∨ ∃ rest, comment = '#' :: rest) := by
  unfold bytes
  rw [Utf8.decode_encode_append]
  refine ⟨_, rfl, ?_⟩
  split
  · exact .inl rfl
  · rename_i comment _
    exact .inr ⟨_, Utf8.decode_append_cons [] (by decide) comment.bytes⟩

/-- The reader finds the word of a line. -/
theorem lineWord_decode (l : RenderedLine) {line : List Char}
    (hline : Program.lineCode line = Program.lineCode (Utf8.decode l.bytes)) (number : Nat) :
    Program.lineWord number line = .ok l.word? := by
  obtain ⟨comment, hdecode, hcomment⟩ := l.exists_decode_bytes
  have hbefore : ∀ c ∈ l.before.chars, isBlank c = true := fun c => isBlank_of_mem_blanks
  unfold word?
  rw [hdecode, text, List.append_assoc] at hline
  split at hline
  · rename_i hcode
    have hnil : Program.lineCode (l.before.chars ++ ([] ++ ([] ++ comment))) = [] :=
      Program.lineCode_eq hbefore nofun nofun nofun nofun hcomment
    rw [hcode]
    exact Program.lineWord_of_nil (hline.trans hnil) number
  · rename_i spelling after hcode
    have htext : Program.lineCode
        (l.before.chars ++ (spelling.text ++ (after.chars ++ comment))) = spelling.text :=
      Program.lineCode_eq hbefore (fun h => (HexWord.not_blank_of_mem_text h).2 rfl)
        (fun c hc => (HexWord.not_blank_of_mem_text (List.mem_of_mem_head? hc)).1)
        (fun c hc => (HexWord.not_blank_of_mem_text (List.mem_of_getLast? hc)).1)
        (fun c => isBlank_of_mem_blanks) hcomment
    rw [List.append_assoc] at hline
    rw [hcode]
    exact Program.lineWord_of_text (hline.trans htext) number

/-- The line end is no part of the line's code. -/
theorem lineCode_dropReturn_decode (l : RenderedLine) (e : LineEnd) :
    Program.lineCode (dropReturn (Utf8.decode (l.bytes ++ e.lead))) =
      Program.lineCode (Utf8.decode l.bytes) := by
  rw [Program.lineCode_dropReturn]
  cases e with
  | lineFeed => rw [LineEnd.lead, List.append_nil]
  | returnLineFeed =>
      have hreturn := Utf8.decode_append_cons l.bytes (show (0x0D : UInt8) < 0x80 by decide) []
      rw [LineEnd.lead, hreturn]
      exact Program.lineCode_append_return (Utf8.decode l.bytes)

end RenderedLine

/-! ## Whole renderings -/

/-- A program as hexadecimal text. -/
structure Rendering where
  /-- The lines with their ends. -/
  lines : List (RenderedLine × LineEnd)
  /-- A last line without an end, if there is one. -/
  last : Option RenderedLine

namespace Rendering

/-- The bytes of a rendering. -/
def bytes (r : Rendering) : List UInt8 :=
  (r.lines.flatMap fun p => p.1.bytes ++ p.2.lead ++ [0x0A]) ++
    match r.last with
    | none => []
    | some l => l.bytes

/-- The words of a rendering. -/
def words (r : Rendering) : List Word :=
  r.lines.filterMap (fun p => p.1.word?) ++ (r.last.bind RenderedLine.word?).toList

/-- No line feed comes of other bytes. -/
theorem lineFeed_not_mem_decode {bytes : List UInt8} (h : 0x0A ∉ bytes) :
    '\n' ∉ Utf8.decode bytes := fun hmem =>
  h (Utf8.mem_of_mem_decode (by decide) (by decide) hmem)

/-- A last line without an end is a line, unless it is empty. -/
theorem exists_found_last (last : Option RenderedLine) :
    ∃ found, List.Forall₂ (fun line w => ∀ number, Program.lineWord number line = .ok w)
      (RiscvListing.lines (Utf8.decode (Rendering.bytes ⟨[], last⟩))) found ∧
      found.reduceOption = Rendering.words ⟨[], last⟩ := by
  rcases last with _ | l
  · exact ⟨[], .nil, rfl⟩
  · have hword : ∀ number, Program.lineWord number (Utf8.decode l.bytes) = .ok l.word? :=
      l.lineWord_decode rfl
    show ∃ found, List.Forall₂ _ (RiscvListing.lines (Utf8.decode l.bytes)) found ∧
      found.reduceOption = l.word?.toList
    rw [lines_of_not_mem (lineFeed_not_mem_decode l.lineFeed_not_mem_bytes)]
    split
    · rename_i hempty
      rw [List.isEmpty_iff.mp hempty] at hword
      have hnone : none = l.word? := Except.ok.inj (hword 0)
      exact ⟨[], .nil, by rw [← hnone]; rfl⟩
    · refine ⟨[l.word?], .cons hword .nil, ?_⟩
      cases l.word? <;> rfl

/-- The lines that the reader sees have the words of the rendering, in order. -/
theorem exists_found (r : Rendering) :
    ∃ found, List.Forall₂ (fun line w => ∀ number, Program.lineWord number line = .ok w)
      (RiscvListing.lines (Utf8.decode r.bytes)) found ∧ found.reduceOption = r.words := by
  obtain ⟨ls, last⟩ := r
  induction ls with
  | nil => exact exists_found_last last
  | cons p ls ih =>
      obtain ⟨l, e⟩ := p
      obtain ⟨found, hfound, hwords⟩ := ih
      have hbytes : Rendering.bytes ⟨(l, e) :: ls, last⟩ =
          (l.bytes ++ e.lead) ++ 0x0A :: Rendering.bytes ⟨ls, last⟩ := by
        simp [Rendering.bytes]
      have hline : 0x0A ∉ l.bytes ++ e.lead := by
        intro h
        rcases List.mem_append.mp h with h | h
        · exact l.lineFeed_not_mem_bytes h
        · cases e <;> exact absurd h (by decide)
      have hread : ∀ number, Program.lineWord number
          (dropReturn (Utf8.decode (l.bytes ++ e.lead))) = .ok l.word? :=
        l.lineWord_decode (l.lineCode_dropReturn_decode e)
      rw [hbytes, Utf8.decode_append_cons _ (by decide)]
      show ∃ found, List.Forall₂ _ (RiscvListing.lines (_ ++ '\n' :: _)) found ∧ _
      rw [lines_append_cons (lineFeed_not_mem_decode hline)]
      refine ⟨l.word? :: found, .cons hread hfound, ?_⟩
      unfold words at hwords ⊢
      rw [List.filterMap_cons]
      rcases l.word? with _ | w
      · rw [List.reduceOption_cons_of_none]
        exact hwords
      · rw [List.reduceOption_cons_of_some, hwords]
        rfl

/-- Every list of words has a rendering. -/
theorem exists_words (words : List Word) : ∃ r : Rendering, r.words = words := by
  choose spelling hspelling using HexWord.exists_spelling
  let blanks : Blanks := ⟨[], nofun, nofun⟩
  refine ⟨⟨words.map fun w => (⟨blanks, some (spelling w, blanks), none⟩, .lineFeed), none⟩, ?_⟩
  simp [Rendering.words, RenderedLine.word?, List.filterMap_map, hspelling]

end Rendering

/-- **Renderings read back**: whatever blanks, comments, empty lines and line ends it has, a
rendering is read as its words, and so are the little-endian bytes of these words. Every list of
words has a rendering. -/
theorem rendering_reads_back :
    (∀ words : List Word, ∃ r : Rendering, r.words = words) ∧
    ∀ r : Rendering, Program.read r.bytes .hex = .ok r.words ∧
      Program.read (Program.littleEndian r.words) .binary = .ok r.words := by
  refine ⟨Rendering.exists_words, fun r => ⟨?_, Program.readBinary_littleEndian r.words⟩⟩
  obtain ⟨found, hfound, hwords⟩ := r.exists_found
  have hread := Program.readHex_eq_ok hfound
  rw [hwords] at hread
  exact hread

end RiscvListing
