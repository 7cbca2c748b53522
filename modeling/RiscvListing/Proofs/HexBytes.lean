import RiscvListing.Proofs.HexGrammar
import RiscvListing.Proofs.HexLines
import RiscvListing.Proofs.Replacement

/-!
# Hexadecimal text, from its bytes

The reader turns the whole buffer into text before it looks for lines and comments. It could as well
cut the bytes first: neither a line feed nor a `#` is ever swallowed by the bytes before it.

* `Utf8.splitOn_decode`, `Utf8.takeWhile_decode`: cutting the bytes is cutting the text.
* `Program.codeOfBytes`, `Program.codes`: the codes of a buffer, cut out of its bytes.
  `Program.readHex_eq_readCodes_codes` says that the reader finds these.
* `SameBeforeComment`: lines that differ in their comments only.
* **Comments have no influence and broken code is not passed over** (`comments_have_no_influence`).
* **Joined buffers** (`read_of_joined`): the words of two buffers follow each other, and a fault is
  reported at its line in the whole.
-/

namespace RiscvListing

/-! ## Cutting bytes and cutting text -/

namespace Utf8

/-- Cutting the text at its line feeds is cutting the bytes at theirs. -/
theorem splitOn_decode (bytes : List UInt8) :
    (decode bytes).splitOn '\n' = (bytes.splitOn 0x0A).map decode := by
  induction bytes using pieces_induction (0x0A : UInt8) with
  | last line h =>
      rw [List.splitOn_eq_singleton h,
        List.splitOn_eq_singleton (Rendering.lineFeed_not_mem_decode h)]
      rfl
  | next line rest h ih =>
      have hcut : decode (line ++ 0x0A :: rest) = decode line ++ '\n' :: decode rest :=
        decode_append_cons line (by decide) rest
      rw [hcut, List.splitOn_append_cons_self_of_not_mem (Rendering.lineFeed_not_mem_decode h), ih,
        List.splitOn_append_cons_self_of_not_mem h, List.map_cons]

/-- What stands before a comment can be cut out of the bytes. -/
theorem takeWhile_decode (line : List UInt8) :
    (decode line).takeWhile (· ≠ '#') = decode (line.takeWhile (· ≠ 0x23)) := by
  have hkeep : ∀ {code : List UInt8}, 0x23 ∉ code →
      ∀ c ∈ decode code, decide (c ≠ '#') = true := by
    intro code hcode c hc
    refine decide_eq_true ?_
    rintro rfl
    exact hcode (mem_of_mem_decode (by decide) (by decide) hc)
  by_cases hhash : 0x23 ∈ line
  · obtain ⟨code, comment, rfl, hcode⟩ := List.eq_append_cons_of_mem hhash
    have hcut : decode (code ++ 0x23 :: comment) = decode code ++ '#' :: decode comment :=
      decode_append_cons code (by decide) comment
    have hbytes : ∀ b ∈ code, decide (b ≠ 0x23) = true := fun b hb =>
      decide_eq_true fun h => hcode (h ▸ hb)
    rw [hcut, List.takeWhile_append_of_pos (hkeep hcode), List.takeWhile_append_of_pos hbytes]
    simp
  · have hbytes : line.takeWhile (· ≠ 0x23) = line :=
      List.takeWhile_eq_self_iff.mpr fun b hb => decide_eq_true fun h => hhash (h ▸ hb)
    rw [hbytes, List.takeWhile_eq_self_iff.mpr (hkeep hhash)]

end Utf8

namespace Program

/-! ## The codes of a buffer -/

/-- The code of a line of bytes: what the bytes before the comment read as, without the blanks
around it. -/
def codeOfBytes (line : List UInt8) : List Char := trim (Utf8.decode (line.takeWhile (· ≠ 0x23)))

/-- The codes of the lines between the line feeds of a buffer. -/
def codes (bytes : List UInt8) : List (List Char) := (bytes.splitOn 0x0A).map codeOfBytes

/-- Cutting the comment off the bytes of a line leaves the code of its text. -/
theorem lineCode_decode (line : List UInt8) : lineCode (Utf8.decode line) = codeOfBytes line :=
  congrArg trim (Utf8.takeWhile_decode line)

/-- There is a code for every line feed, and one more. -/
theorem length_codes (bytes : List UInt8) : (codes bytes).length = bytes.count 0x0A + 1 := by
  rw [codes, List.length_map, length_splitOn]

/-- Buffers that are joined by a line feed have the codes of both. -/
theorem codes_append_cons (bytes rest : List UInt8) :
    codes (bytes ++ 0x0A :: rest) = codes bytes ++ codes rest := by
  unfold codes
  rw [List.splitOn_append_cons_self, List.map_append]

/-- Empty codes at the end are passed over. -/
theorem readCodes_append_nil (number : Nat) (codes : List (List Char)) :
    readCodes number (codes ++ [[]]) = readCodes number codes := by
  rcases readable_or_first_unreadable codes with hall | ⟨before, code, after, rfl, hbefore, hcode⟩
  · have hmore : ∀ code ∈ codes ++ [[]], Readable code := by
      intro code hmem
      rcases List.mem_append.mp hmem with hmem | hmem
      · exact hall code hmem
      · exact .inl (List.mem_singleton.mp hmem)
    rw [readCodes_of_readable hmore, readCodes_of_readable hall, List.filterMap_append]
    exact congrArg Except.ok (List.append_nil _)
  · rw [List.append_assoc, List.cons_append, readCodes_of_unreadable hbefore hcode,
      readCodes_of_unreadable hbefore hcode]

/-- The lines of a text have the codes of the pieces between its line feeds. A last piece that is
empty is no line, but then its code is empty, too. -/
theorem readCodes_lines (number : Nat) (text : List Char) :
    readCodes number ((lines text).map lineCode) =
      readCodes number ((text.splitOn '\n').map lineCode) := by
  obtain ⟨start, last, hpieces⟩ : ∃ start last, text.splitOn '\n' = start ++ [last] :=
    ⟨_, _, (List.dropLast_append_getLast (List.splitOn_ne_nil '\n' text)).symm⟩
  have hstart : (start.map dropReturn).map lineCode = start.map lineCode := by
    rw [List.map_map]
    exact List.map_congr_left fun line _ => lineCode_dropReturn line
  have hlines : lines text = start.map dropReturn ++ [last].filter fun l => !l.isEmpty := by
    unfold lines
    dsimp only
    rw [hpieces, List.dropLast_concat, List.getLast?_concat]
    rfl
  rw [hlines, hpieces, List.map_append, List.map_append, hstart]
  cases last with
  | nil =>
      show readCodes number (start.map lineCode ++ []) =
        readCodes number (start.map lineCode ++ [[]])
      rw [List.append_nil, readCodes_append_nil]
  | cons c last => rfl

/-- **The reader finds the codes that are cut out of the bytes.** -/
theorem readHex_eq_readCodes_codes (bytes : List UInt8) :
    readHex bytes = readCodes 1 (codes bytes) := by
  have hcodes : ((bytes.splitOn 0x0A).map Utf8.decode).map lineCode = codes bytes := by
    rw [List.map_map]
    exact List.map_congr_left fun line _ => lineCode_decode line
  rw [readHex_eq_readCodes, readCodes_lines, Utf8.splitOn_decode, hcodes]

/-! ## Code that is no text -/

/-- A code with a character that is not ASCII cannot be read. -/
theorem not_readable_of_mem {code : List Char} {c : Char} (hc : c ∈ code) (h : 0x80 ≤ c.toNat) :
    ¬ Readable code := by
  rintro (rfl | hsome)
  · exact nomatch hc
  · rw [HexWord.parse?_eq_none_of_foreign hc (.inr (.inr (.inr h)))] at hsome
    exact nomatch hsome

/-- Bytes of a code that are no text keep it from being read. -/
theorem not_readable_of_not_valid {line : List UInt8}
    (h : ¬ (line.takeWhile (· ≠ 0x23)).toByteArray.IsValidUTF8) :
    ¬ Readable (codeOfBytes line) := by
  have hmem : Utf8.replacement ∈ codeOfBytes line :=
    mem_trim (Utf8.replacement_mem_decode h) (by decide)
  exact not_readable_of_mem hmem (by decide)

/-- A code that cannot be read is reported, unless an earlier one is. -/
theorem exists_error_of_unreadable {before : List (List Char)} {code : List Char}
    (hcode : ¬ Readable code) (after : List (List Char)) (number : Nat) :
    ∃ line text, readCodes number (before ++ code :: after) = .error (.invalidHexWord line text) ∧
      number ≤ line ∧ line ≤ before.length + number := by
  rcases readable_or_first_unreadable before with
    hall | ⟨earlier, first, rest, rfl, hearlier, hfirst⟩
  · exact ⟨_, _, readCodes_of_unreadable hall hcode after number, by omega, le_rfl⟩
  · rw [List.append_assoc, List.cons_append]
    refine ⟨_, _, readCodes_of_unreadable hearlier hfirst _ number, by omega, ?_⟩
    rw [List.length_append]
    omega

end Program

/-! ## Comments -/

/-- Two lines that are equal up to the `#` of their comments, or wholly if they have none. -/
inductive SameBeforeComment : List UInt8 → List UInt8 → Prop
  /-- Lines without a comment are equal. -/
  | plain {line : List UInt8} : 0x23 ∉ line → SameBeforeComment line line
  /-- Lines with comments are equal before them. -/
  | commented {code : List UInt8} (comment other : List UInt8) : 0x23 ∉ code →
      SameBeforeComment (code ++ 0x23 :: comment) (code ++ 0x23 :: other)

/-- Such lines have the same code. -/
theorem SameBeforeComment.codeOfBytes_eq {line other : List UInt8}
    (h : SameBeforeComment line other) :
    Program.codeOfBytes line = Program.codeOfBytes other := by
  cases h with
  | plain _ => rfl
  | @commented code comment other hcode =>
      have hkeep : ∀ b ∈ code, decide (b ≠ 0x23) = true := fun b hb =>
        decide_eq_true fun h => hcode (h ▸ hb)
      unfold Program.codeOfBytes
      rw [List.takeWhile_append_of_pos hkeep, List.takeWhile_append_of_pos hkeep]
      simp

theorem map_codeOfBytes_eq {ls others : List (List UInt8)}
    (h : List.Forall₂ SameBeforeComment ls others) :
    ls.map Program.codeOfBytes = others.map Program.codeOfBytes := by
  induction h with
  | nil => rfl
  | cons hline _ ih => rw [List.map_cons, List.map_cons, hline.codeOfBytes_eq, ih]

/-- **Comments have no influence and broken code is not passed over.** Two buffers with as many line
feeds whose lines are equal up to their comments are read alike. A buffer with a line that has bytes
before its comment which are no text is refused, at that line or at an earlier one. -/
theorem comments_have_no_influence :
    (∀ bytes other : List UInt8, bytes.count 0x0A = other.count 0x0A →
      (∀ p ∈ (bytes.splitOn 0x0A).zip (other.splitOn 0x0A), SameBeforeComment p.1 p.2) →
      Program.read bytes .hex = Program.read other .hex) ∧
    (∀ (bytes : List UInt8) (before : List (List UInt8)) (line : List UInt8)
      (after : List (List UInt8)), bytes.splitOn 0x0A = before ++ line :: after →
      ¬ (line.takeWhile (· ≠ 0x23)).toByteArray.IsValidUTF8 →
      ∃ number text, Program.read bytes .hex = .error (.invalidHexWord number text) ∧
        1 ≤ number ∧ number ≤ before.length + 1) := by
  constructor
  · intro bytes other hcount hlines
    have hlength : (bytes.splitOn 0x0A).length = (other.splitOn 0x0A).length := by
      rw [length_splitOn, length_splitOn, hcount]
    have hcodes : Program.codes bytes = Program.codes other := map_codeOfBytes_eq
      (List.forall₂_iff_zip.mpr ⟨hlength, fun hmem => hlines _ hmem⟩)
    show Program.readHex bytes = Program.readHex other
    rw [Program.readHex_eq_readCodes_codes, Program.readHex_eq_readCodes_codes, hcodes]
  · intro bytes before line after hsplit hvalid
    have hcodes : Program.codes bytes = before.map Program.codeOfBytes ++
        Program.codeOfBytes line :: after.map Program.codeOfBytes := by
      rw [Program.codes, hsplit, List.map_append, List.map_cons]
    obtain ⟨number, text, hread, hpos, hle⟩ := Program.exists_error_of_unreadable
      (Program.not_readable_of_not_valid hvalid) _ 1
    refine ⟨number, text, ?_, hpos, ?_⟩
    · show Program.readHex bytes = _
      rw [Program.readHex_eq_readCodes_codes, hcodes]
      exact hread
    · rwa [List.length_map] at hle

/-- A comment that ends inside a character does not take the next line with it; the same bytes
without a `#` before them are refused. -/
theorem comments_have_no_influence_truncated :
    let bytes : List UInt8 := [0x37, 0x33, 0x23, 0xE2, 0x82, 0x0A, 0x37, 0x34]
    let other : List UInt8 := [0x37, 0x33, 0x23, 0x0A, 0x37, 0x34]
    let broken : List UInt8 := [0x37, 0x33, 0x0A, 0xE2, 0x82, 0x23, 0x0A]
    Program.read bytes .hex = Program.read other .hex ∧
      ∃ number text, Program.read broken .hex = .error (.invalidHexWord number text) ∧
        1 ≤ number ∧ number ≤ 2 := by
  intro bytes other broken
  have hzip : (bytes.splitOn 0x0A).zip (other.splitOn 0x0A) =
      [([0x37, 0x33] ++ 0x23 :: [0xE2, 0x82], [0x37, 0x33] ++ 0x23 :: []),
        ([0x37, 0x34], [0x37, 0x34])] := by decide
  have hlines : ∀ p ∈ (bytes.splitOn 0x0A).zip (other.splitOn 0x0A),
      SameBeforeComment p.1 p.2 := by
    rw [hzip]
    intro p hp
    rcases List.mem_cons.mp hp with rfl | hp
    · exact .commented _ _ (by decide)
    · rw [List.mem_singleton.mp hp]
      exact .plain (by decide)
  exact ⟨comments_have_no_influence.1 bytes other (by decide) hlines,
    comments_have_no_influence.2 broken [[0x37, 0x33]] [0xE2, 0x82, 0x23] [[]] (by decide)
      (by decide)⟩

/-! ## Joined buffers -/

/-- **Joined buffers.** Two buffers are joined by a line feed. A fault of the first is reported
unchanged; a fault of the second is reported as many lines later as the first has lines; and without
a fault the words of the second follow those of the first. -/
theorem read_of_joined (bytes rest : List UInt8) :
    let joined := bytes ++ 0x0A :: rest
    (∃ number text, Program.read bytes .hex = .error (.invalidHexWord number text) ∧
      Program.read joined .hex = .error (.invalidHexWord number text)) ∨
    (∃ words number text, Program.read bytes .hex = .ok words ∧
      Program.read rest .hex = .error (.invalidHexWord number text) ∧
      Program.read joined .hex =
        .error (.invalidHexWord (number + bytes.count 0x0A + 1) text)) ∨
    (∃ words more, Program.read bytes .hex = .ok words ∧ Program.read rest .hex = .ok more ∧
      Program.read joined .hex = .ok (words ++ more)) := by
  intro joined
  have hread : ∀ b : List UInt8, Program.read b .hex = Program.readCodes 1 (Program.codes b) :=
    Program.readHex_eq_readCodes_codes
  rw [hread, hread, hread, show Program.codes joined = _ from Program.codes_append_cons bytes rest]
  rcases Program.readable_or_first_unreadable (Program.codes bytes) with
    hall | ⟨before, code, after, hcodes, hbefore, hcode⟩
  · rcases Program.readable_or_first_unreadable (Program.codes rest) with
      hmore | ⟨before, code, after, hcodes, hbefore, hcode⟩
    · have hboth : ∀ code ∈ Program.codes bytes ++ Program.codes rest, Program.Readable code :=
        List.forall_mem_append.mpr ⟨hall, hmore⟩
      refine .inr (.inr ⟨_, _, Program.readCodes_of_readable hall 1,
        Program.readCodes_of_readable hmore 1, ?_⟩)
      rw [Program.readCodes_of_readable hboth, List.filterMap_append]
    · have hearlier : ∀ c ∈ Program.codes bytes ++ before, Program.Readable c :=
        List.forall_mem_append.mpr ⟨hall, hbefore⟩
      have hnumber : (Program.codes bytes ++ before).length + 1 =
          before.length + 1 + bytes.count 0x0A + 1 := by
        rw [List.length_append, Program.length_codes]
        omega
      refine .inr (.inl ⟨_, before.length + 1, String.ofList code,
        Program.readCodes_of_readable hall 1, ?_, ?_⟩)
      · rw [hcodes, Program.readCodes_of_unreadable hbefore hcode]
      · rw [hcodes, ← List.append_assoc, Program.readCodes_of_unreadable hearlier hcode, hnumber]
  · rw [hcodes, List.append_assoc, List.cons_append]
    exact .inl ⟨_, _, Program.readCodes_of_unreadable hbefore hcode after 1,
      Program.readCodes_of_unreadable hbefore hcode _ 1⟩

-- The first buffer ends inside a character of its comment, after a bare carriage return.
example : Program.read ([0x0A, 0x37, 0x33, 0x0D, 0x23, 0xE2, 0x82] ++ 0x0A :: [0x0A, 0x78]) .hex =
    .error (.invalidHexWord 4 "x") := by decide

end RiscvListing
