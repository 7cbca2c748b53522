import RiscvListing.Proofs.Rendering

/-!
# The grammar of hexadecimal words

The texts that spell a number, said without the reader.

* `HexWord.lowerDigits`, `HexWord.upperDigits`, `HexWord.IsDigit`: the digits. The value of a digit
  is its place in one of the two alphabets.
* `HexWord.Spells text n`: after a mark or none, the text has one to eight digits and otherwise only
  underscores, and the digits make `n` by position.
* `HexWord.lt_of_spells`: such a number fits into a word.
* `HexWord.parse?_eq_none_of_mem_body`: one character after the mark that is neither a digit nor an
  underscore spoils the whole text.
* **Exactly the grammar is read** (`HexWord.parse_accepts_grammar`): a text is read as a word just
  if it spells its number, and the usual mistakes are all refused.
-/

namespace RiscvListing.HexWord

/-! ## Digits -/

/-- The digits with small letters, in order of their values. -/
def lowerDigits : List Char :=
  ['0', '1', '2', '3', '4', '5', '6', '7', '8', '9', 'a', 'b', 'c', 'd', 'e', 'f']

/-- The digits with capital letters, in order of their values. -/
def upperDigits : List Char :=
  ['0', '1', '2', '3', '4', '5', '6', '7', '8', '9', 'A', 'B', 'C', 'D', 'E', 'F']

/-- A character is the digit of a value if it stands at that place of an alphabet. -/
def IsDigit (c : Char) (d : Nat) : Prop := lowerDigits[d]? = some c ∨ upperDigits[d]? = some c

instance (c : Char) (d : Nat) : Decidable (IsDigit c d) := inferInstanceAs (Decidable (_ ∨ _))

theorem IsDigit.lt {c : Char} {d : Nat} (h : IsDigit c d) : d < 16 := by
  rcases h with h | h
  · exact (List.getElem?_eq_some_iff.mp h).1
  · exact (List.getElem?_eq_some_iff.mp h).1

/-- A digit stands in one of the alphabets. -/
theorem IsDigit.mem {c : Char} {d : Nat} (h : IsDigit c d) : c ∈ lowerDigits ∨ c ∈ upperDigits :=
  h.imp List.mem_of_getElem? List.mem_of_getElem?

/-- No digit is an underscore or the letter of a mark. -/
theorem IsDigit.ne {c : Char} {d : Nat} (h : IsDigit c d) : c ≠ '_' ∧ c ≠ 'x' ∧ c ≠ 'X' := by
  have hlower : ∀ e ∈ lowerDigits, e ≠ '_' ∧ e ≠ 'x' ∧ e ≠ 'X' := by simp [lowerDigits]
  have hupper : ∀ e ∈ upperDigits, e ≠ '_' ∧ e ≠ 'x' ∧ e ≠ 'X' := by simp [upperDigits]
  exact h.mem.elim (hlower c) (hupper c)

/-- The reader knows the digits and their values. -/
theorem digitValue?_eq_some_iff (c : Char) (d : Nat) : digitValue? c = some d ↔ IsDigit c d := by
  constructor
  · intro h
    obtain ⟨g, rfl, hg⟩ := exists_glyph_of_digitValue? h
    cases g with
    | underscore => exact nomatch hg
    | digit value upper =>
        obtain rfl : value.val = d := Option.some.inj hg
        have hchar : ∀ (v : Fin 16) (u : Bool), IsDigit (Glyph.digit v u).char v := by decide
        exact hchar value upper
  · intro h
    have hlower : ∀ v < 16, digitValue? (lowerDigits[v]?.getD '_') = some v := by decide
    have hupper : ∀ v < 16, digitValue? (upperDigits[v]?.getD '_') = some v := by decide
    have hd := h.lt
    rcases h with h | h
    · have hc := hlower d hd
      rwa [h] at hc
    · have hc := hupper d hd
      rwa [h] at hc

/-- Digits are read one by one. -/
theorem mapM_digitValue?_eq_some_iff (cs : List Char) (ds : List Nat) :
    cs.mapM digitValue? = some ds ↔ List.Forall₂ IsDigit cs ds := by
  induction cs generalizing ds with
  | nil =>
      rw [List.mapM_nil, List.forall₂_nil_left_iff]
      exact ⟨fun h => (Option.some.inj h).symm, fun h => congrArg some h.symm⟩
  | cons c cs ih =>
      rw [List.mapM_cons, List.forall₂_cons_left_iff]
      constructor
      · intro h
        obtain ⟨d, hd, hrest⟩ := Option.bind_eq_some_iff.mp h
        obtain ⟨es, hes, hds⟩ := Option.bind_eq_some_iff.mp hrest
        exact ⟨d, es, (digitValue?_eq_some_iff c d).mp hd, (ih es).mp hes,
          (Option.some.inj hds).symm⟩
      · rintro ⟨d, es, hd, hes, rfl⟩
        rw [(digitValue?_eq_some_iff c d).mpr hd, (ih es).mpr hes]
        rfl

/-! ## Spelled numbers -/

/-- A text spells a number if it consists of a mark, or none, and of one to eight digits with
underscores among them; the first digit has the most weight. -/
def Spells (text : List Char) (n : Nat) : Prop :=
  ∃ (mark : Mark) (rest : List Char) (digits : List Nat), text = mark.text ++ rest ∧
    List.Forall₂ IsDigit (rest.filter (· ≠ '_')) digits ∧
    1 ≤ digits.length ∧ digits.length ≤ 8 ∧ n = Nat.ofDigits 16 digits.reverse

theorem exists_isDigit_of_mem {cs : List Char} {digits : List Nat}
    (h : List.Forall₂ IsDigit cs digits) {c : Char} (hc : c ∈ cs) : ∃ d, IsDigit c d := by
  induction h with
  | nil => exact nomatch hc
  | cons hd _ ih =>
      rcases List.mem_cons.mp hc with rfl | hc
      · exact ⟨_, hd⟩
      · exact ih hc

theorem forall_lt_of_isDigit {cs : List Char} {digits : List Nat}
    (h : List.Forall₂ IsDigit cs digits) : ∀ d ∈ digits, d < 16 := by
  induction h with
  | nil => exact nofun
  | cons hd _ ih => exact List.forall_mem_cons.mpr ⟨hd.lt, ih⟩

/-- A spelled number fits into a word. -/
theorem lt_of_spells {text : List Char} {n : Nat} (h : Spells text n) : n < 2 ^ 32 := by
  obtain ⟨mark, rest, digits, -, hdigits, -, hle, rfl⟩ := h
  have hlt : ∀ d ∈ digits.reverse, d < 16 := fun d hd =>
    forall_lt_of_isDigit hdigits d (List.mem_reverse.mp hd)
  calc Nat.ofDigits 16 digits.reverse
      < 16 ^ digits.reverse.length := Nat.ofDigits_lt_base_pow_length (by decide) hlt
    _ ≤ 16 ^ 8 := Nat.pow_le_pow_right (by decide) (by rwa [List.length_reverse])
    _ = 2 ^ 32 := by decide

/-- What follows the mark of a spelled number is the body of the text. -/
theorem body_append (mark : Mark) {rest : List Char} {digits : List Nat}
    (hdigits : List.Forall₂ IsDigit (rest.filter (· ≠ '_')) digits) :
    body (mark.text ++ rest) = rest := by
  cases mark with
  | lower => rfl
  | upper => rfl
  | absent =>
      refine body_eq_self fun c hc => ?_
      by_cases hunderscore : c = '_'
      · subst hunderscore
        decide
      · have hkept : c ∈ rest.filter (· ≠ '_') :=
          List.mem_filter.mpr ⟨hc, decide_eq_true hunderscore⟩
        obtain ⟨d, hd⟩ := exists_isDigit_of_mem hdigits hkept
        exact hd.ne.2

/-- **A text is read as a word just if it spells the word's number.** -/
theorem parse?_eq_some_iff_spells (text : List Char) (w : Word) :
    parse? text = some w ↔ Spells text w.toNat := by
  constructor
  · intro h
    obtain ⟨digits, hdigits, hword⟩ := Option.bind_eq_some_iff.mp h
    split_ifs at hword with hlength
    obtain ⟨mark, hmark⟩ := exists_mark text
    have hspelled := (mapM_digitValue?_eq_some_iff _ digits).mp hdigits
    have hn : Spells text (value digits) :=
      ⟨mark, body text, digits, hmark, hspelled, hlength.1, hlength.2, value_eq_ofDigits digits⟩
    rw [← Option.some.inj hword, BitVec.toNat_ofNat, Nat.mod_eq_of_lt (lt_of_spells hn)]
    exact hn
  · rintro ⟨mark, rest, digits, rfl, hdigits, hpos, hle, hn⟩
    have hbody := body_append mark hdigits
    have hread := (mapM_digitValue?_eq_some_iff _ digits).mpr hdigits
    unfold parse?
    rw [hbody, hread]
    show (if _ then _ else _) = _
    rw [if_pos ⟨hpos, hle⟩, value_eq_ofDigits, ← hn, BitVec.ofNat_toNat, BitVec.setWidth_eq]

/-! ## Texts that are refused -/

/-- One character after the mark that is neither a digit nor an underscore spoils the text. -/
theorem parse?_eq_none_of_mem_body {text : List Char} {c : Char} (hc : c ∈ body text)
    (hunderscore : c ≠ '_') (hdigit : c ∉ lowerDigits ∧ c ∉ upperDigits) : parse? text = none := by
  rw [Option.eq_none_iff_forall_ne_some]
  intro w hw
  obtain ⟨digits, hdigits, -⟩ := Option.bind_eq_some_iff.mp hw
  have hkept : c ∈ (body text).filter (· ≠ '_') :=
    List.mem_filter.mpr ⟨hc, decide_eq_true hunderscore⟩
  obtain ⟨d, hd⟩ := exists_isDigit_of_mem ((mapM_digitValue?_eq_some_iff _ digits).mp hdigits) hkept
  exact hd.mem.elim hdigit.1 hdigit.2

/-- Only the characters of a mark may stand before the body. -/
theorem mem_body {text : List Char} {c : Char} (hc : c ∈ text) (hmark : c ∉ ['0', 'x', 'X']) :
    c ∈ body text := by
  obtain ⟨mark, htext⟩ := exists_mark text
  rw [htext] at hc
  rcases List.mem_append.mp hc with hc | hc
  · have hchars : ∀ e ∈ mark.text, e ∈ ['0', 'x', 'X'] := by cases mark <;> simp [Mark.text]
    exact absurd (hchars c hc) hmark
  · exact hc

/-- From the third character on everything is body. -/
theorem mem_body_of_mem_drop {text : List Char} {c : Char} (hc : c ∈ text.drop 2) :
    c ∈ body text := by
  unfold body
  split
  · exact hc
  · exact hc
  · exact List.mem_of_mem_drop hc

/-- Signs, white space and whatever is not ASCII have no place in a word. -/
theorem parse?_eq_none_of_foreign {text : List Char} {c : Char} (hc : c ∈ text)
    (h : c = '+' ∨ c = '-' ∨ c.toNat ∈ whiteSpace ∨ 0x80 ≤ c.toNat) : parse? text = none := by
  have hother : ∀ e ∈ '_' :: 'x' :: 'X' :: (lowerDigits ++ upperDigits),
      ¬ (e = '+' ∨ e = '-' ∨ e.toNat ∈ whiteSpace ∨ 0x80 ≤ e.toNat) := by
    simp [lowerDigits, upperDigits, whiteSpace]
  have hne : c ∉ '_' :: 'x' :: 'X' :: (lowerDigits ++ upperDigits) := fun hmem => hother c hmem h
  simp only [List.mem_cons, List.mem_append, not_or] at hne
  obtain ⟨hunderscore, hx, hX, hlower, hupper⟩ := hne
  have hzero : c ≠ '0' := fun h0 => hlower (h0 ▸ List.mem_cons_self)
  exact parse?_eq_none_of_mem_body (mem_body hc (by simp [hzero, hx, hX])) hunderscore
    ⟨hlower, hupper⟩

/-- A mark may stand at the start only: neither after another mark nor after an underscore. -/
theorem parse?_eq_none_of_late_mark {lead : List Char} (hlead : lead ≠ []) {mark : Mark}
    (hmark : mark ≠ .absent) (rest : List Char) : parse? (lead ++ mark.text ++ rest) = none := by
  obtain ⟨x, hx, htext⟩ : ∃ x, (x = 'x' ∨ x = 'X') ∧ mark.text = ['0', x] := by
    cases mark with
    | absent => exact absurd rfl hmark
    | lower => exact ⟨'x', .inl rfl, rfl⟩
    | upper => exact ⟨'X', .inr rfl, rfl⟩
  obtain ⟨a, lead, rfl⟩ := List.exists_cons_of_ne_nil hlead
  have hdrop : x ∈ (a :: lead ++ mark.text ++ rest).drop 2 := by
    rw [htext]
    cases lead <;> simp
  refine parse?_eq_none_of_mem_body (mem_body_of_mem_drop hdrop) ?_ ?_
  · rcases hx with rfl | rfl <;> decide
  · rcases hx with rfl | rfl <;> decide

/-- A text without digits spells nothing. -/
theorem parse?_eq_none_of_no_digit (mark : Mark) {rest : List Char} (hrest : ∀ c ∈ rest, c = '_') :
    parse? (mark.text ++ rest) = none := by
  have hfilter : rest.filter (· ≠ '_') = [] :=
    List.filter_eq_nil_iff.mpr fun c hc => by simp [hrest c hc]
  have hdigits : List.Forall₂ IsDigit (rest.filter (· ≠ '_')) [] := by
    rw [hfilter]
    exact .nil
  unfold parse?
  rw [body_append mark hdigits, hfilter]
  rfl

/-- **Exactly the grammar is read.** A text is read as a word just if it spells the word's number,
and such a number always fits. Every other text is refused: one with a sign, with white space or
with anything that is not ASCII, one with a mark after its start (a second mark, or a mark behind an
underscore), and one without a digit. -/
theorem parse_accepts_grammar (text : List Char) :
    (∀ w, parse? text = some w ↔ Spells text w.toNat) ∧
    (∀ n, Spells text n → n < 2 ^ 32) ∧
    (parse? text = none ↔ ∀ n, ¬ Spells text n) ∧
    (∀ c ∈ text, c = '+' ∨ c = '-' ∨ c.toNat ∈ whiteSpace ∨ 0x80 ≤ c.toNat →
      parse? text = none) ∧
    (∀ lead, lead ≠ [] → ∀ mark : Mark, mark ≠ .absent →
      parse? (lead ++ mark.text ++ text) = none) ∧
    ((∀ c ∈ text, c = '_') → ∀ mark : Mark, parse? (mark.text ++ text) = none) := by
  refine ⟨parse?_eq_some_iff_spells text, fun n => lt_of_spells, ?_,
    fun c hc => parse?_eq_none_of_foreign hc,
    fun lead hlead mark hmark => parse?_eq_none_of_late_mark hlead hmark text,
    fun htext mark => parse?_eq_none_of_no_digit mark htext⟩
  rw [Option.eq_none_iff_forall_ne_some]
  constructor
  · -- a spelled number is that of the word with the same number
    intro hnone n hn
    refine hnone (BitVec.ofNat 32 n) ((parse?_eq_some_iff_spells text _).mpr ?_)
    rwa [BitVec.toNat_ofNat, Nat.mod_eq_of_lt (lt_of_spells hn)]
  · exact fun hnot w hw => hnot w.toNat ((parse?_eq_some_iff_spells text w).mp hw)

/-- The greatest word in capitals with an underscore is read; with a second mark it is not. -/
theorem parse_accepts_grammar_ffff_ffff :
    parse? "0XFFFF_FFFF".toList = some 0xFFFFFFFF ∧ parse? "0x0XFFFF_FFFF".toList = none := by
  have hspells : Spells "0XFFFF_FFFF".toList (0xFFFFFFFF : Word).toNat :=
    ⟨.upper, "FFFF_FFFF".toList, List.replicate 8 15, rfl,
      by simp [IsDigit, lowerDigits, upperDigits], by decide, by decide, by decide⟩
  have hsecond := (parse_accepts_grammar "FFFF_FFFF".toList).2.2.2.2.1 ['0', 'x'] (by decide)
  exact ⟨((parse_accepts_grammar _).1 _).mpr hspells, hsecond .upper (by decide)⟩

end RiscvListing.HexWord
