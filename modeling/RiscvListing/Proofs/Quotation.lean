import RiscvListing.Proofs.HexLines

/-!
# Messages about foreign text

A message about a line that spells no word shows the code of the line, which may be any text. It is
quoted so that the message stays one line and says which text it was.

* `IsControl`: the control characters. None of them stands in a quoted text
  (`Quoted.not_isControl_of_mem_escape`).
* `Quoted.escape_cases`: the three spellings that a character can have between quotes.
* `Quoted.readChar?`: reads the first character of a quoted text and leaves what follows it. It
  undoes one escape whatever follows (`Quoted.readChar?_escape`), so no spelling starts another one
  and the whole text is determined (`quoteBy_injective`).
* **Messages are one line and unambiguous** (`invalidHexWord_messages_unambiguous`).

All this holds for every table of printable characters that leaves out the controls.
-/

namespace RiscvListing

/-- The control characters: those before the space, and those from the delete character up to the
Latin-1 characters. -/
def IsControl (c : Char) : Prop := c.toNat < 0x20 ∨ 0x7F ≤ c.toNat ∧ c.toNat ≤ 0x9F

instance (c : Char) : Decidable (IsControl c) := inferInstanceAs (Decidable (_ ∨ _))

theorem not_isControl_of_isDigit {c : Char} (h : c.isDigit = true) : ¬ IsControl c := by
  simp only [Char.isDigit, Bool.and_eq_true, decide_eq_true_eq, ge_iff_le,
    UInt32.le_iff_toNat_le] at h
  have hbounds : 48 ≤ c.toNat ∧ c.toNat ≤ 57 := h
  rw [IsControl]
  omega

namespace Quoted

variable (table : Printable.Table)

/-! ## The spellings of a character -/

/-- The letters that stand after a backslash, with the characters that they mean. -/
def letters : List (Char × Char) :=
  [('0', '\x00'), ('t', '\t'), ('r', '\r'), ('n', '\n'), ('"', '"'), ('\\', '\\')]

/-- A character has a letter, or is shown as itself, or is given by its code point. -/
theorem escape_cases (c : Char) :
    (∃ letter, (letter, c) ∈ letters ∧ escape table c = ['\\', letter]) ∨
    (c ≠ '\\' ∧ table.shows c = true ∧ escape table c = [c]) ∨
    escape table c = '\\' :: 'u' :: '\x7b' :: (Nat.toDigits 16 c.toNat ++ ['\x7d']) := by
  unfold escape
  split_ifs with hnul htab hreturn hfeed hquote hslash hshown
  · exact .inl ⟨'0', by simp [letters, hnul], rfl⟩
  · exact .inl ⟨'t', by simp [letters, htab], rfl⟩
  · exact .inl ⟨'r', by simp [letters, hreturn], rfl⟩
  · exact .inl ⟨'n', by simp [letters, hfeed], rfl⟩
  · exact .inl ⟨'"', by simp [letters, hquote], rfl⟩
  · exact .inl ⟨'\\', by simp [letters, hslash], rfl⟩
  · exact .inr (.inl ⟨hslash, hshown, rfl⟩)
  · exact .inr (.inr rfl)

/-- Digits are neither controls nor the brace that ends a code point. -/
theorem digitChar_spec {d : Nat} (h : d < 16) :
    ¬ IsControl (Nat.digitChar d) ∧ Nat.digitChar d ≠ '\x7d' := by
  decide +revert

/-- **No control character stands between quotes.** -/
theorem not_isControl_of_mem_escape {c d : Char} (h : d ∈ escape table c) : ¬ IsControl d := by
  rcases escape_cases table c with ⟨letter, hletter, hescape⟩ | ⟨-, hshown, hescape⟩ | hescape
  · have hplain : ∀ p ∈ letters, ∀ e ∈ ['\\', p.1], ¬ IsControl e := by
      simp [letters, IsControl]
    rw [hescape] at h
    exact hplain _ hletter d h
  · rw [hescape, List.mem_singleton] at h
    have hbounds := table.bounds hshown
    rw [h, IsControl]
    omega
  · obtain ⟨digits, hlt, hdigits, -⟩ := Numeral.exists_digits_toDigits c.toNat
    rw [hescape, hdigits] at h
    simp only [List.mem_cons, List.mem_append, List.mem_map, List.not_mem_nil, or_false] at h
    rcases h with rfl | rfl | rfl | ⟨digit, hdigit, rfl⟩ | rfl
    · decide
    · decide
    · decide
    · exact (digitChar_spec (hlt digit hdigit)).1
    · decide

/-! ## Reading one character back -/

/-- The first character of a quoted text, and what follows its spelling. -/
def readChar? : List Char → Option (Char × List Char)
  | '\\' :: 'u' :: '\x7b' :: rest => do
    let digits ← (rest.takeWhile (· ≠ '\x7d')).mapM HexWord.digitValue?
    return (Char.ofNat (HexWord.value digits), (rest.dropWhile (· ≠ '\x7d')).drop 1)
  | '\\' :: letter :: rest => (letters.lookup letter).map (·, rest)
  | c :: rest => some (c, rest)
  | [] => none

/-- A letter after a backslash is read as the character that it means. -/
theorem readChar?_letter {letter c : Char} (h : (letter, c) ∈ letters) (rest : List Char) :
    readChar? ('\\' :: letter :: rest) = some (c, rest) := by
  simp only [letters, List.mem_cons, List.not_mem_nil, or_false, Prod.mk.injEq] at h
  rcases h with ⟨rfl, rfl⟩ | ⟨rfl, rfl⟩ | ⟨rfl, rfl⟩ | ⟨rfl, rfl⟩ | ⟨rfl, rfl⟩ | ⟨rfl, rfl⟩ <;> rfl

/-- Any character but the backslash is read as itself. -/
theorem readChar?_of_ne {c : Char} (h : c ≠ '\\') (rest : List Char) :
    readChar? (c :: rest) = some (c, rest) := by
  simp [readChar?, h]

/-- A code point is read up to its closing brace. -/
theorem readChar?_codePoint (c : Char) (rest : List Char) :
    readChar? ('\\' :: 'u' :: '\x7b' :: (Nat.toDigits 16 c.toNat ++ '\x7d' :: rest)) =
      some (c, rest) := by
  obtain ⟨digits, hlt, hdigits, hvalue⟩ := Numeral.exists_digits_toDigits c.toNat
  have hbrace : ∀ e ∈ digits.map Nat.digitChar, decide (e ≠ '\x7d') = true := by
    intro e he
    obtain ⟨digit, hdigit, rfl⟩ := List.mem_map.mp he
    exact decide_eq_true (digitChar_spec (hlt digit hdigit)).2
  rw [hdigits, readChar?, List.takeWhile_append_of_pos hbrace, List.dropWhile_append_of_pos hbrace,
    List.takeWhile_cons_of_neg (by decide), List.dropWhile_cons_of_neg (by decide),
    List.append_nil, HexWord.mapM_digitValue? hlt, Option.bind_eq_bind, Option.bind_some, hvalue,
    Char.ofNat_toNat]
  rfl

/-- **One character is read back**, whatever follows it. -/
theorem readChar?_escape (c : Char) (rest : List Char) :
    readChar? (escape table c ++ rest) = some (c, rest) := by
  rcases escape_cases table c with ⟨letter, hletter, hescape⟩ | ⟨hslash, -, hescape⟩ | hescape
  · rw [hescape]
    exact readChar?_letter hletter rest
  · rw [hescape]
    exact readChar?_of_ne hslash rest
  · rw [hescape, List.cons_append, List.cons_append, List.cons_append, List.append_assoc]
    exact readChar?_codePoint c rest

/-- Texts with the same spelling are the same. -/
theorem flatMap_escape_injective : Function.Injective (List.flatMap (escape table)) := by
  intro text other h
  induction text generalizing other with
  | nil =>
      cases other with
      | nil => rfl
      | cons d other =>
          have hread := congrArg readChar? h
          rw [List.flatMap_cons, readChar?_escape table] at hread
          exact nomatch hread
  | cons c text ih =>
      have hread := congrArg readChar? h
      rw [List.flatMap_cons, readChar?_escape table] at hread
      cases other with
      | nil => exact nomatch hread
      | cons d other =>
          rw [List.flatMap_cons, readChar?_escape table] at hread
          obtain ⟨rfl, hrest⟩ := Prod.mk.inj (Option.some.inj hread)
          rw [ih hrest]

end Quoted

section

variable (table : Printable.Table)

@[simp] theorem toList_quoteBy (text : String) :
    (quoteBy table text).toList = '"' :: (text.toList.flatMap (Quoted.escape table) ++ ['"']) :=
  String.toList_ofList

/-- **A quoted text can be told from any other.** -/
theorem quoteBy_injective : Function.Injective (quoteBy table) := by
  intro text other h
  have hlist := congrArg String.toList h
  simp only [toList_quoteBy, List.cons.injEq, true_and, List.append_cancel_right_eq] at hlist
  exact String.toList_injective (Quoted.flatMap_escape_injective table hlist)

/-! ## The messages -/

namespace Failure

/-- The message about a line: its number up to a colon, and its code between quotes. -/
theorem toList_messageBy_invalidHexWord (line : Nat) (text : String) :
    ((invalidHexWord line text).messageBy table).toList =
      "Line ".toList ++ ((Numeral.natural line).toList ++
        ':' :: (" invalid hex word ".toList ++ (quoteBy table text).toList)) := by
  have hcolon : ": invalid hex word ".toList = ':' :: " invalid hex word ".toList := by decide
  show ("Line " ++ Numeral.natural line ++ ": invalid hex word " ++ quoteBy table text).toList = _
  rw [String.toList_append, String.toList_append, String.toList_append, hcolon]
  simp only [List.append_assoc, List.cons_append]

/-- **No control character stands in the message about a line.** -/
theorem not_isControl_of_mem_messageBy {line : Nat} {text : String} {c : Char}
    (h : c ∈ ((invalidHexWord line text).messageBy table).toList) : ¬ IsControl c := by
  rw [toList_messageBy_invalidHexWord, toList_quoteBy] at h
  simp only [List.mem_append, List.mem_cons, List.mem_flatMap, List.not_mem_nil, or_false] at h
  have hstart : ∀ e ∈ "Line ".toList, ¬ IsControl e := by simp [IsControl]
  have hmiddle : ∀ e ∈ " invalid hex word ".toList, ¬ IsControl e := by simp [IsControl]
  rcases h with h | h | rfl | h | rfl | ⟨d, -, h⟩ | rfl
  · exact hstart c h
  · exact not_isControl_of_isDigit (Numeral.isDigit_of_mem_natural h)
  · decide
  · exact hmiddle c h
  · decide
  · exact Quoted.not_isControl_of_mem_escape table h
  · decide

/-- The message about a line is one line. -/
theorem lines_messageBy (line : Nat) (text : String) :
    lines ((invalidHexWord line text).messageBy table).toList =
      [((invalidHexWord line text).messageBy table).toList] := by
  have hfeed : '\n' ∉ ((invalidHexWord line text).messageBy table).toList :=
    fun hmem => not_isControl_of_mem_messageBy table hmem (by decide)
  rw [lines_of_not_mem hfeed, toList_messageBy_invalidHexWord]
  rfl

/-- **The message about a line tells its number and its code.** -/
theorem eq_of_messageBy_invalidHexWord_eq {line line' : Nat} {text text' : String}
    (h : (invalidHexWord line text).messageBy table =
      (invalidHexWord line' text').messageBy table) : line = line' ∧ text = text' := by
  have hlist := congrArg String.toList h
  rw [toList_messageBy_invalidHexWord, toList_messageBy_invalidHexWord,
    List.append_cancel_left_eq] at hlist
  have hcolon : ∀ n, ':' ∉ (Numeral.natural n).toList := by
    intro n hmem
    exact absurd (Numeral.isDigit_of_mem_natural hmem) (by decide)
  -- the first colon ends the number
  have hpieces := congrArg (List.splitOn ':') hlist
  rw [List.splitOn_append_cons_self_of_not_mem (hcolon line),
    List.splitOn_append_cons_self_of_not_mem (hcolon line')] at hpieces
  have hnumber := String.toList_injective (List.cons.inj hpieces).1
  rw [hnumber, List.append_cancel_left_eq, List.cons.injEq, List.append_cancel_left_eq] at hlist
  exact ⟨Numeral.natural_injective hnumber,
    quoteBy_injective table (String.toList_injective hlist.2)⟩

end Failure

end

/-- **Messages about lines are one line and unambiguous.** Whatever the bytes are, a failure to read
them as text is about a line, and its message has no control character in it, so that it is one line
itself. Two such messages are equal only if they are about lines with the same number and the same
code, also if a code looks like an escape or has quotes in it. The characters that are shown as
themselves may be any but the controls. -/
theorem invalidHexWord_messages_unambiguous :
    (∀ failure : Failure, failure.message = failure.messageBy .unicode) ∧
    ∀ table : Printable.Table,
    (∀ bytes failure, Program.read bytes .hex = .error failure →
      (∃ line text, failure = .invalidHexWord line text) ∧
      (∀ c ∈ (failure.messageBy table).toList, ¬ IsControl c) ∧
      lines (failure.messageBy table).toList = [(failure.messageBy table).toList]) ∧
    ∀ line line' text text',
      (Failure.invalidHexWord line text).messageBy table =
        (Failure.invalidHexWord line' text').messageBy table →
          line = line' ∧ text = text' := by
  refine ⟨fun _ => rfl, fun table => ⟨?_, fun _ _ _ _ => ?_⟩⟩
  case refine_2 => exact Failure.eq_of_messageBy_invalidHexWord_eq table
  intro bytes failure herror
  have hcodes := (Program.readHex_eq_readCodes bytes).symm.trans herror
  obtain ⟨before, code, -, -, -, -, rfl⟩ := (Program.readCodes_eq_error_iff 1 _ failure).mp hcodes
  exact ⟨⟨_, _, rfl⟩, fun c => Failure.not_isControl_of_mem_messageBy table,
    Failure.lines_messageBy table _ _⟩

/-- A line that would clear the screen and close the quotes is shown by its code points and escapes;
a bell and the five characters that look like its escape have different messages. -/
theorem invalidHexWord_messages_unambiguous_escapes :
    let failure := Failure.invalidHexWord 2 "\x1b[2J\""
    Program.read (Utf8.encode "73\n\x1b[2J\"\t# z".toList) .hex = .error failure ∧
      (∀ c ∈ failure.message.toList, ¬ IsControl c) ∧
      failure.message = "Line 2: invalid hex word \"\\u\x7b1b\x7d[2J\\\"\"" ∧
      (Failure.invalidHexWord 2 "\x07").message ≠
        (Failure.invalidHexWord 2 "\\u\x7b7\x7d").message := by
  intro failure
  obtain ⟨hplain, hunique⟩ := invalidHexWord_messages_unambiguous.2 .unicode
  have herror : Program.read (Utf8.encode "73\n\x1b[2J\"\t# z".toList) .hex = .error failure := by
    decide +kernel
  refine ⟨herror, (hplain _ _ herror).2.1, by decide +kernel, fun hsame => ?_⟩
  exact absurd (hunique _ _ _ _ hsame).2 (by decide)

end RiscvListing
