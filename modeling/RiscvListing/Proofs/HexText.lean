import RiscvListing.Program
import RiscvListing.Proofs.Numeral
import RiscvListing.Proofs.TextLines

/-!
# Hexadecimal text

* `HexWord.Spelling`: the ways to spell a word, with or without a mark, in digits of either case,
  with underscores among them. Every one is read as its word (`HexWord.parse?_text`), and no other
  text is read as a word (`HexWord.exists_spelling_of_parse?`).
* `trim_blanks_append`, `trim_append_blanks`: blanks at the ends do not count.
* `Program.lineCode_eq`, `Program.lineCode_dropReturn`: neither do a comment and the carriage return
  of the line end.
* **Lines that can be read** (`Program.readHex_eq_ok`): if every line has a word or none, the words
  are those of the lines in order.
-/

namespace RiscvListing

/-! ## Spellings -/

namespace HexWord

/-- The mark in front of a word. -/
inductive Mark where
  /-- There is none. -/
  | absent
  /-- `0x`. -/
  | lower
  /-- `0X`. -/
  | upper
  deriving DecidableEq, Repr

/-- The characters of a mark. -/
def Mark.text : Mark → List Char
  | .absent => []
  | .lower => ['0', 'x']
  | .upper => ['0', 'X']

/-- What may follow the mark: digits in either case and underscores. -/
inductive Glyph where
  /-- A digit of a given value. -/
  | digit (value : Fin 16) (upper : Bool)
  /-- An underscore. -/
  | underscore
  deriving DecidableEq, Repr

/-- The character of a glyph. -/
def Glyph.char : Glyph → Char
  | .digit value upper =>
    if upper then (Nat.digitChar value).toUpper else Nat.digitChar value
  | .underscore => '_'

/-- The value of a digit. -/
def Glyph.value? : Glyph → Option Nat
  | .digit value _ => some value
  | .underscore => none

/-- The values of the digits among glyphs. -/
def digitsOf (glyphs : List Glyph) : List Nat := glyphs.filterMap Glyph.value?

/-- A way to spell a word. -/
structure Spelling where
  /-- The mark. -/
  mark : Mark
  /-- The digits, with underscores among them. -/
  glyphs : List Glyph
  /-- There is a digit. -/
  digits_pos : 1 ≤ (digitsOf glyphs).length
  /-- There are at most eight digits, zeros in front counted. -/
  digits_le : (digitsOf glyphs).length ≤ 8

namespace Spelling

/-- The characters of a spelling. -/
def text (s : Spelling) : List Char := s.mark.text ++ s.glyphs.map Glyph.char

/-- The word that is spelled: the digits in base sixteen, the last one being the least. -/
def word (s : Spelling) : Word := BitVec.ofNat 32 (Nat.ofDigits 16 (digitsOf s.glyphs).reverse)

end Spelling

/-- The number of a list of digits, by position. -/
theorem value_eq_ofDigits (digits : List Nat) : value digits = Nat.ofDigits 16 digits.reverse := by
  rw [value, List.foldl_eq_foldr_reverse, Nat.ofDigits_eq_foldr]
  simp [Nat.add_comm]

/-- A glyph is a digit or an underscore, and no other character. -/
theorem Glyph.char_ne (g : Glyph) :
    isBlank g.char = false ∧ g.char ≠ '#' ∧ g.char ≠ 'x' ∧ g.char ≠ 'X' := by
  cases g with
  | digit value upper => decide +revert
  | underscore => decide

theorem digitValue?_char (value : Fin 16) (upper : Bool) :
    digitValue? (Glyph.digit value upper).char = some value.val ∧
      (Glyph.digit value upper).char ≠ '_' := by
  decide +revert

/-- Leaving the underscores out, the glyphs are digits. -/
theorem mapM_digitValue?_glyphs (glyphs : List Glyph) :
    ((glyphs.map Glyph.char).filter (· ≠ '_')).mapM digitValue? = some (digitsOf glyphs) := by
  induction glyphs with
  | nil => rfl
  | cons g glyphs ih =>
      cases g with
      | underscore => exact ih
      | digit value upper =>
          obtain ⟨hvalue, hne⟩ := digitValue?_char value upper
          have hkeep : decide ((Glyph.digit value upper).char ≠ '_') = true := decide_eq_true hne
          rw [List.map_cons, List.filter_cons, if_pos hkeep, List.mapM_cons, hvalue, ih]
          rfl

/-- What follows the mark is the body. -/
theorem body_text (s : Spelling) : body s.text = s.glyphs.map Glyph.char := by
  unfold Spelling.text
  cases s.mark with
  | lower => rfl
  | upper => rfl
  | absent =>
      refine body_eq_self fun c hc => ?_
      obtain ⟨g, -, rfl⟩ := List.mem_map.mp hc
      exact ⟨g.char_ne.2.2.1, g.char_ne.2.2.2⟩

/-- **Every spelling is read as its word.** -/
theorem parse?_text (s : Spelling) : parse? s.text = some s.word := by
  unfold parse?
  rw [body_text, mapM_digitValue?_glyphs]
  show (if _ then _ else _) = _
  rw [if_pos ⟨s.digits_pos, s.digits_le⟩, value_eq_ofDigits]
  rfl

/-- All digits can be written. -/
theorem exists_glyphs {digits : List Nat} (h : ∀ d ∈ digits, d < 16) :
    ∃ glyphs, digitsOf glyphs = digits := by
  induction digits with
  | nil => exact ⟨[], rfl⟩
  | cons d digits ih =>
      obtain ⟨glyphs, hglyphs⟩ := ih fun e he => h e (List.mem_cons_of_mem d he)
      exact ⟨.digit ⟨d, h d List.mem_cons_self⟩ false :: glyphs, congrArg (d :: ·) hglyphs⟩

/-- Every word can be spelled. -/
theorem exists_spelling (w : Word) : ∃ s : Spelling, s.word = w := by
  obtain ⟨digits, hlt, htext, hvalue⟩ := Numeral.exists_digits_hexPadded 8 w.toNat
  obtain ⟨glyphs, rfl⟩ := exists_glyphs hlt
  have hlength : (digitsOf glyphs).length = 8 := by
    rw [← List.length_map Nat.digitChar, ← htext]
    exact Numeral.length_hexPadded (by decide) w.isLt
  refine ⟨⟨.absent, glyphs, by omega, by omega⟩, ?_⟩
  rw [Spelling.word, ← value_eq_ofDigits, hvalue, BitVec.ofNat_toNat, BitVec.setWidth_eq]

/-- A character with a digit's value is that digit, in one of the two cases. -/
theorem exists_glyph_of_digitValue? {c : Char} {v : Nat} (h : digitValue? c = some v) :
    ∃ g : Glyph, g.char = c ∧ g.value? = some v := by
  have hdigits : ∀ n < 128, ∀ v ∈ digitValue? (Char.ofNat n), ∃ (d : Fin 16) (upper : Bool),
      (Glyph.digit d upper).char = Char.ofNat n ∧ d.val = v := by
    decide
  have hascii : c.toNat < 128 := by
    unfold digitValue? at h
    split_ifs at h with h0 ha hA
    · exact lt_of_le_of_lt (show c.toNat ≤ 57 from h0.2) (by decide)
    · exact lt_of_le_of_lt (show c.toNat ≤ 102 from ha.2) (by decide)
    · exact lt_of_le_of_lt (show c.toNat ≤ 70 from hA.2) (by decide)
  have hc : Char.ofNat c.toNat = c := Char.ofNat_toNat c
  obtain ⟨d, upper, hchar, rfl⟩ := hdigits c.toNat hascii v (by rw [hc]; exact h)
  exact ⟨.digit d upper, hchar.trans hc, rfl⟩

/-- Digits with underscores among them are glyphs. -/
theorem exists_glyphs_of_mapM {text : List Char} {digits : List Nat}
    (h : (text.filter (· ≠ '_')).mapM digitValue? = some digits) :
    ∃ glyphs, glyphs.map Glyph.char = text ∧ digitsOf glyphs = digits := by
  induction text generalizing digits with
  | nil => exact ⟨[], rfl, Option.some.inj h⟩
  | cons c text ih =>
      by_cases hc : c = '_'
      · subst hc
        obtain ⟨glyphs, htext, hdigits⟩ := ih h
        exact ⟨.underscore :: glyphs, congrArg ('_' :: ·) htext, hdigits⟩
      · rw [List.filter_cons, if_pos (decide_eq_true hc), List.mapM_cons] at h
        obtain ⟨v, hv, hrest⟩ := Option.bind_eq_some_iff.mp h
        obtain ⟨vs, hvs, hdigits⟩ := Option.bind_eq_some_iff.mp hrest
        obtain rfl := Option.some.inj hdigits
        obtain ⟨g, hchar, hvalue⟩ := exists_glyph_of_digitValue? hv
        obtain ⟨glyphs, htext, hglyphs⟩ := ih hvs
        refine ⟨g :: glyphs, by rw [List.map_cons, hchar, htext], ?_⟩
        rw [digitsOf, List.filterMap_cons_some hvalue]
        exact congrArg (v :: ·) hglyphs

/-- What stands in front of the body is a mark. -/
theorem exists_mark (text : List Char) : ∃ mark : Mark, text = mark.text ++ body text := by
  unfold body
  split
  · exact ⟨.lower, rfl⟩
  · exact ⟨.upper, rfl⟩
  · exact ⟨.absent, rfl⟩

/-- **Every text that is read as a word is a spelling of it.** -/
theorem exists_spelling_of_parse? {text : List Char} {w : Word} (h : parse? text = some w) :
    ∃ s : Spelling, s.text = text ∧ s.word = w := by
  unfold parse? at h
  obtain ⟨digits, hdigits, hword⟩ := Option.bind_eq_some_iff.mp h
  obtain ⟨glyphs, htext, rfl⟩ := exists_glyphs_of_mapM hdigits
  obtain ⟨mark, hmark⟩ := exists_mark text
  split_ifs at hword with hlength
  refine ⟨⟨mark, glyphs, hlength.1, hlength.2⟩, ?_, ?_⟩
  · rw [Spelling.text, htext, ← hmark]
  · rw [Spelling.word, ← value_eq_ofDigits]
    exact Option.some.inj hword

/-- A spelling has no blanks and starts no comment. -/
theorem not_blank_of_mem_text {s : Spelling} {c : Char} (h : c ∈ s.text) :
    isBlank c = false ∧ c ≠ '#' := by
  rcases List.mem_append.mp h with hc | hc
  · have hmark : c = '0' ∨ c = 'x' ∨ c = 'X' := by
      revert hc
      cases s.mark <;> simp [Mark.text] <;> tauto
    rcases hmark with rfl | rfl | rfl <;> decide
  · obtain ⟨g, -, rfl⟩ := List.mem_map.mp hc
    exact ⟨g.char_ne.1, g.char_ne.2.1⟩

theorem Spelling.text_ne_nil (s : Spelling) : s.text ≠ [] := by
  intro h
  have hglyphs : s.glyphs = [] := List.map_eq_nil_iff.mp (List.append_eq_nil_iff.mp h).2
  have hpos := s.digits_pos
  rw [hglyphs] at hpos
  exact absurd hpos (by decide)

end HexWord

/-! ## Trimming -/

/-- Blanks in front do not count. -/
theorem trim_blanks_append {blanks : List Char} (h : ∀ c ∈ blanks, isBlank c = true)
    (text : List Char) : trim (blanks ++ text) = trim text := by
  unfold trim
  rw [List.dropWhile_append_of_pos h]

/-- A blank at the end does not count. -/
theorem trim_append_blank (text : List Char) {c : Char} (h : isBlank c = true) :
    trim (text ++ [c]) = trim text := by
  unfold trim
  rw [List.dropWhile_append]
  split
  · rename_i hempty
    rw [List.isEmpty_iff.mp hempty]
    simp [h]
  · rw [List.reverse_append, List.reverse_singleton, List.singleton_append,
      List.dropWhile_cons_of_pos h]

/-- Nor do blanks at the end. -/
theorem trim_append_blanks (text : List Char) {blanks : List Char}
    (h : ∀ c ∈ blanks, isBlank c = true) : trim (text ++ blanks) = trim text := by
  induction blanks generalizing text with
  | nil => rw [List.append_nil]
  | cons c blanks ih =>
      have hrest := ih (text ++ [c]) fun d hd => h d (List.mem_cons_of_mem c hd)
      rw [List.append_assoc, List.singleton_append] at hrest
      rw [hrest, trim_append_blank text (h c List.mem_cons_self)]

/-- A text with no blank at either end is not changed. -/
theorem trim_eq_self {text : List Char} (hfirst : ∀ c ∈ text.head?, isBlank c = false)
    (hlast : ∀ c ∈ text.getLast?, isBlank c = false) : trim text = text := by
  have hdrop : ∀ {cs : List Char}, (∀ c ∈ cs.head?, isBlank c = false) →
      cs.dropWhile isBlank = cs := by
    intro cs hcs
    cases cs with
    | nil => rfl
    | cons c cs => exact List.dropWhile_cons_of_neg (by simp [hcs c rfl])
  have hreverse : ∀ c ∈ text.reverse.head?, isBlank c = false := by
    rw [List.head?_reverse]
    exact hlast
  unfold trim
  rw [hdrop hfirst, hdrop hreverse, List.reverse_reverse]

namespace Program

/-! ## The code of a line -/

/-- The code of a line is what stands before its comment, without the blanks. -/
theorem lineCode_eq {before code after comment : List Char}
    (hbefore : ∀ c ∈ before, isBlank c = true) (hcode : '#' ∉ code)
    (hfirst : ∀ c ∈ code.head?, isBlank c = false) (hlast : ∀ c ∈ code.getLast?, isBlank c = false)
    (hafter : ∀ c ∈ after, isBlank c = true)
    (hcomment : comment = [] ∨ ∃ rest, comment = '#' :: rest) :
    lineCode (before ++ (code ++ (after ++ comment))) = code := by
  have hblank : ∀ {c : Char}, isBlank c = true → c ≠ '#' := by
    rintro c hc rfl
    exact absurd hc (by decide)
  have htake : (before ++ (code ++ (after ++ comment))).takeWhile (· ≠ '#') =
      before ++ (code ++ after) := by
    have hkeep : ∀ c ∈ before ++ (code ++ after), decide (c ≠ '#') = true := by
      intro c hc
      rcases List.mem_append.mp hc with hc | hc
      · exact decide_eq_true (hblank (hbefore c hc))
      · rcases List.mem_append.mp hc with hc | hc
        · exact decide_eq_true fun h => hcode (h ▸ hc)
        · exact decide_eq_true (hblank (hafter c hc))
    have hrest : comment.takeWhile (· ≠ '#') = [] := by
      rcases hcomment with rfl | ⟨rest, rfl⟩ <;> rfl
    rw [← List.append_assoc code, ← List.append_assoc before, List.takeWhile_append_of_pos hkeep,
      hrest, List.append_nil]
  unfold lineCode
  rw [htake, trim_blanks_append hbefore, trim_append_blanks code hafter,
    trim_eq_self hfirst hlast]

/-- A carriage return at the end of a line does not count. -/
theorem lineCode_append_return (line : List Char) : lineCode (line ++ ['\r']) = lineCode line := by
  unfold lineCode
  rw [List.takeWhile_append]
  split
  · rename_i hlength
    have hwhole := (List.takeWhile_prefix (fun c => decide (c ≠ '#'))).eq_of_length hlength
    rw [hwhole]
    exact trim_append_blank line (by decide)
  · rfl

theorem lineCode_dropReturn (line : List Char) : lineCode (dropReturn line) = lineCode line := by
  unfold dropReturn
  split
  · rename_i hlast
    obtain ⟨start, rfl⟩ := List.getLast?_eq_some_iff.mp hlast
    rw [List.dropLast_concat, lineCode_append_return]
  · rfl

/-! ## Reading line by line -/

/-- A line without code has no word. -/
theorem lineWord_of_nil {line : List Char} (h : lineCode line = []) (number : Nat) :
    lineWord number line = .ok none := by
  unfold lineWord
  rw [h]
  rfl

/-- A line whose code spells a word has that word. -/
theorem lineWord_of_text {line : List Char} {s : HexWord.Spelling} (h : lineCode line = s.text)
    (number : Nat) : lineWord number line = .ok (some s.word) := by
  have hne : ¬ s.text.isEmpty = true := fun hempty => s.text_ne_nil (List.isEmpty_iff.mp hempty)
  unfold lineWord
  dsimp only
  rw [h, if_neg hne, HexWord.parse?_text]

/-- **Lines that can be read**: the words are those of the lines, in order. -/
theorem readHex_eq_ok {bytes : List UInt8} {found : List (Option Word)}
    (h : List.Forall₂ (fun line w => ∀ number, lineWord number line = .ok w)
      (lines (Utf8.decode bytes)) found) : readHex bytes = .ok found.reduceOption := by
  have hread : readHex bytes = (do
      let found ← ((lines (Utf8.decode bytes)).zipIdx 1).mapM fun p => lineWord p.2 p.1
      return found.reduceOption) := rfl
  rw [hread]
  generalize lines (Utf8.decode bytes) = ls at h ⊢
  have hmap : ∀ start, (ls.zipIdx start).mapM (fun p => lineWord p.2 p.1) = .ok found := by
    induction h with
    | nil => exact fun _ => rfl
    | cons hline _ ih =>
        intro start
        rw [List.zipIdx_cons, List.mapM_cons, ih (start + 1)]
        dsimp only
        rw [hline]
        rfl
  rw [hmap 1]
  rfl

end Program

end RiscvListing
