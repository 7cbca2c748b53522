import RiscvListing.Proofs.Rendering

/-!
# Hexadecimal text, line by line

* `Program.IsCode line code`: the code of a line, said without cutting and trimming. It is what the
  reader finds (`Program.lineCode_eq_iff_isCode`).
* `Program.Readable`: the codes that can be read, namely those that are empty or spell a word.
* `Program.readCodes`: the reader as a loop over codes, which stops at the first one that cannot be
  read. `Program.readHex_eq_readCodes` says that it is the reader.
* `Program.readCodes_of_readable`, `Program.readCodes_of_unreadable`: what the loop comes to. One of
  the two always applies (`Program.readable_or_first_unreadable`).
* **Lines are judged one by one** (`readHex_judges_lines`): the text is read if every line can be,
  as the words of the lines that have one; otherwise the first line that cannot is reported, with
  its number and its code.
-/

namespace RiscvListing

/-! ## Trimming -/

/-- Trimming takes away blanks and nothing else. -/
theorem exists_blanks_trim (text : List Char) :
    ∃ before after, text = before ++ (trim text ++ after) ∧ (∀ c ∈ before, isBlank c = true) ∧
      ∀ c ∈ after, isBlank c = true := by
  obtain ⟨rest, hrest⟩ : ∃ rest, rest = text.dropWhile isBlank := ⟨_, rfl⟩
  have hend : trim text ++ (rest.reverse.takeWhile isBlank).reverse = rest := by
    unfold trim
    rw [← hrest, ← List.reverse_append, List.takeWhile_append_dropWhile, List.reverse_reverse]
  refine ⟨text.takeWhile isBlank, (rest.reverse.takeWhile isBlank).reverse, ?_, ?_, ?_⟩
  · rw [hend, hrest, List.takeWhile_append_dropWhile]
  · exact fun c hc => List.mem_takeWhile_imp hc
  · exact fun c hc => List.mem_takeWhile_imp (List.mem_reverse.mp hc)

theorem not_blank_of_mem_head?_dropWhile {text : List Char} {c : Char}
    (h : c ∈ (text.dropWhile isBlank).head?) : isBlank c = false := by
  have hnot := List.head?_dropWhile_not isBlank text
  rw [Option.mem_def.mp h] at hnot
  exact hnot

/-- A trimmed text does not start with a blank. -/
theorem not_blank_of_mem_head?_trim {text : List Char} {c : Char} (h : c ∈ (trim text).head?) :
    isBlank c = false := by
  obtain ⟨rest, hrest⟩ : trim text <+: text.dropWhile isBlank := List.rdropWhile_prefix isBlank _
  have hhead : c ∈ (text.dropWhile isBlank).head? := by
    rw [← hrest, List.head?_append, Option.mem_def.mp h]
    rfl
  exact not_blank_of_mem_head?_dropWhile hhead

/-- A trimmed text does not end with a blank. -/
theorem not_blank_of_mem_getLast?_trim {text : List Char} {c : Char}
    (h : c ∈ (trim text).getLast?) : isBlank c = false := by
  unfold trim at h
  rw [List.getLast?_reverse] at h
  exact not_blank_of_mem_head?_dropWhile h

/-- Trimming keeps every character that is no blank. -/
theorem mem_trim {text : List Char} {c : Char} (hc : c ∈ text) (hblank : isBlank c = false) :
    c ∈ trim text := by
  obtain ⟨before, after, htext, hbefore, hafter⟩ := exists_blanks_trim text
  rw [htext] at hc
  rcases List.mem_append.mp hc with hc | hc
  · exact absurd (hbefore c hc) (by simp [hblank])
  · rcases List.mem_append.mp hc with hc | hc
    · exact hc
    · exact absurd (hafter c hc) (by simp [hblank])

namespace Program

/-! ## The code of a line -/

/-- What a line has between white space, before its comment if it has one. -/
def IsCode (line code : List Char) : Prop :=
  ∃ before after comment, line = before ++ (code ++ (after ++ comment)) ∧
    (∀ c ∈ before, c.toNat ∈ whiteSpace) ∧ (∀ c ∈ after, c.toNat ∈ whiteSpace) ∧
    '#' ∉ code ∧ (comment = [] ∨ ∃ rest, comment = '#' :: rest) ∧
    (∀ c ∈ code.head?, c.toNat ∉ whiteSpace) ∧ ∀ c ∈ code.getLast?, c.toNat ∉ whiteSpace

theorem isBlank_eq_false_iff (c : Char) : isBlank c = false ↔ c.toNat ∉ whiteSpace := by
  rw [← isBlank_iff, Bool.not_eq_true]

/-- A line starts with what stands before its comment. -/
theorem exists_comment (line : List Char) :
    ∃ comment, line = line.takeWhile (· ≠ '#') ++ comment ∧
      (comment = [] ∨ ∃ rest, comment = '#' :: rest) := by
  refine ⟨line.dropWhile (· ≠ '#'), List.takeWhile_append_dropWhile.symm, ?_⟩
  have hhead := List.head?_dropWhile_not (fun c => decide (c ≠ '#')) line
  rcases hrest : line.dropWhile (· ≠ '#') with _ | ⟨c, rest⟩
  · exact .inl rfl
  · rw [hrest] at hhead
    obtain rfl : c = '#' := by simpa using hhead
    exact .inr ⟨rest, rfl⟩

/-- The reader finds the code of a line. -/
theorem isCode_lineCode (line : List Char) : IsCode line (lineCode line) := by
  obtain ⟨comment, hline, hcomment⟩ := exists_comment line
  obtain ⟨before, after, htext, hbefore, hafter⟩ :=
    exists_blanks_trim (line.takeWhile (· ≠ '#'))
  have hhash : '#' ∉ lineCode line := by
    intro hmem
    have htake : '#' ∈ line.takeWhile (· ≠ '#') := by
      rw [htext]
      exact List.mem_append_right _ (List.mem_append_left _ hmem)
    exact absurd (List.mem_takeWhile_imp htake) (by decide)
  refine ⟨before, after, comment, ?_, fun c hc => (isBlank_iff c).mp (hbefore c hc),
    fun c hc => (isBlank_iff c).mp (hafter c hc), hhash, hcomment, ?_, ?_⟩
  · rw [← List.append_assoc, ← List.append_assoc, List.append_assoc before]
    exact hline.trans (congrArg (· ++ comment) htext)
  · exact fun c hc => (isBlank_eq_false_iff c).mp (not_blank_of_mem_head?_trim hc)
  · exact fun c hc => (isBlank_eq_false_iff c).mp (not_blank_of_mem_getLast?_trim hc)

/-- A line has one code only. -/
theorem lineCode_eq_iff_isCode (line code : List Char) :
    lineCode line = code ↔ IsCode line code := by
  constructor
  · rintro rfl
    exact isCode_lineCode line
  · rintro ⟨before, after, comment, rfl, hbefore, hafter, hhash, hcomment, hfirst, hlast⟩
    exact lineCode_eq (fun c hc => (isBlank_iff c).mpr (hbefore c hc)) hhash
      (fun c hc => (isBlank_eq_false_iff c).mpr (hfirst c hc))
      (fun c hc => (isBlank_eq_false_iff c).mpr (hlast c hc))
      (fun c hc => (isBlank_iff c).mpr (hafter c hc)) hcomment

/-! ## The reader as a loop -/

theorem ne_nil_of_parse? {code : List Char} {w : Word} (h : HexWord.parse? code = some w) :
    code ≠ [] := by
  rintro rfl
  exact nomatch h

/-- A code can be read if it is empty or spells a word. -/
def Readable (code : List Char) : Prop := code = [] ∨ (HexWord.parse? code).isSome

instance (code : List Char) : Decidable (Readable code) := inferInstanceAs (Decidable (_ ∨ _))

/-- Reads the codes of lines that are numbered from a given number. -/
def readCodes : Nat → List (List Char) → Except Failure (List Word)
  | _, [] => .ok []
  | number, code :: codes =>
    if code.isEmpty then readCodes (number + 1) codes
    else match HexWord.parse? code with
      | none => .error (.invalidHexWord number (String.ofList code))
      | some w => (readCodes (number + 1) codes).map (w :: ·)

/-- A code that can be read is passed over if it is empty, and gives its word otherwise. -/
theorem readCodes_cons_of_readable {code : List Char} (h : Readable code) (number : Nat)
    (codes : List (List Char)) :
    readCodes number (code :: codes) =
      (readCodes (number + 1) codes).map ((HexWord.parse? code).toList ++ ·) := by
  rcases h with rfl | h
  · show readCodes (number + 1) codes = (readCodes (number + 1) codes).map _
    rcases readCodes (number + 1) codes with f | ws <;> rfl
  · obtain ⟨w, hw⟩ := Option.isSome_iff_exists.mp h
    have hempty : ¬ code.isEmpty = true := fun h => ne_nil_of_parse? hw (List.isEmpty_iff.mp h)
    rw [readCodes, if_neg hempty, hw]
    rfl

/-- A code that cannot be read ends the loop. -/
theorem readCodes_cons_of_unreadable {code : List Char} (h : ¬ Readable code) (number : Nat)
    (codes : List (List Char)) :
    readCodes number (code :: codes) = .error (.invalidHexWord number (String.ofList code)) := by
  obtain ⟨hne, hnone⟩ := not_or.mp h
  have hempty : ¬ code.isEmpty = true := fun h => hne (List.isEmpty_iff.mp h)
  rw [readCodes, if_neg hempty, Option.not_isSome_iff_eq_none.mp hnone]

/-- Codes that can be read give their words, in order. -/
theorem readCodes_of_readable {codes : List (List Char)} (h : ∀ code ∈ codes, Readable code)
    (number : Nat) : readCodes number codes = .ok (codes.filterMap HexWord.parse?) := by
  induction codes generalizing number with
  | nil => rfl
  | cons code codes ih =>
      obtain ⟨hcode, hcodes⟩ := List.forall_mem_cons.mp h
      rw [readCodes_cons_of_readable hcode, ih hcodes]
      rcases hw : HexWord.parse? code with _ | w
      · rw [List.filterMap_cons_none hw]
        rfl
      · rw [List.filterMap_cons_some hw]
        rfl

/-- The first code that cannot be read is reported with its number. -/
theorem readCodes_of_unreadable {before : List (List Char)} {code : List Char}
    (hbefore : ∀ c ∈ before, Readable c) (hcode : ¬ Readable code) (after : List (List Char))
    (number : Nat) :
    readCodes number (before ++ code :: after) =
      .error (.invalidHexWord (before.length + number) (String.ofList code)) := by
  induction before generalizing number with
  | nil =>
      rw [List.nil_append, readCodes_cons_of_unreadable hcode, List.length_nil, Nat.zero_add]
  | cons c before ih =>
      obtain ⟨hc, hrest⟩ := List.forall_mem_cons.mp hbefore
      have hnumber : (c :: before).length + number = before.length + (number + 1) := by
        rw [List.length_cons]
        omega
      rw [List.cons_append, readCodes_cons_of_readable hc, ih hrest, hnumber]
      rfl

/-- Either all codes can be read, or there is a first one that cannot. -/
theorem readable_or_first_unreadable (codes : List (List Char)) :
    (∀ code ∈ codes, Readable code) ∨ ∃ before code after, codes = before ++ code :: after ∧
      (∀ c ∈ before, Readable c) ∧ ¬ Readable code := by
  rcases hfind : codes.find? (fun code => !decide (Readable code)) with _ | code
  · left
    simpa using List.find?_eq_none.mp hfind
  · right
    obtain ⟨hcode, before, after, hcodes, hbefore⟩ := List.find?_eq_some_iff_append.mp hfind
    exact ⟨before, code, after, hcodes, by simpa using hbefore, by simpa using hcode⟩

/-- The loop comes to words just if all codes can be read. -/
theorem readCodes_eq_ok_iff (number : Nat) (codes : List (List Char)) (words : List Word) :
    readCodes number codes = .ok words ↔
      (∀ code ∈ codes, Readable code) ∧ words = codes.filterMap HexWord.parse? := by
  constructor
  · intro hok
    rcases readable_or_first_unreadable codes with hall | ⟨before, code, after, rfl, hbefore, hcode⟩
    · rw [readCodes_of_readable hall] at hok
      exact ⟨hall, (Except.ok.inj hok).symm⟩
    · rw [readCodes_of_unreadable hbefore hcode] at hok
      exact nomatch hok
  · rintro ⟨hall, rfl⟩
    exact readCodes_of_readable hall number

/-- The loop fails just at the first code that cannot be read. -/
theorem readCodes_eq_error_iff (number : Nat) (codes : List (List Char)) (failure : Failure) :
    readCodes number codes = .error failure ↔
      ∃ before code after, codes = before ++ code :: after ∧ (∀ c ∈ before, Readable c) ∧
        ¬ Readable code ∧
        failure = .invalidHexWord (before.length + number) (String.ofList code) := by
  constructor
  · intro herror
    rcases readable_or_first_unreadable codes with hall | ⟨before, code, after, rfl, hbefore, hcode⟩
    · rw [readCodes_of_readable hall] at herror
      exact nomatch herror
    · rw [readCodes_of_unreadable hbefore hcode] at herror
      exact ⟨before, code, after, rfl, hbefore, hcode, (Except.error.inj herror).symm⟩
  · rintro ⟨before, code, after, rfl, hbefore, hcode, rfl⟩
    exact readCodes_of_unreadable hbefore hcode after number

/-- A line whose code can be read has the word of its code, if there is one. -/
theorem lineWord_of_readable {line : List Char} (h : Readable (lineCode line)) (number : Nat) :
    lineWord number line = .ok (HexWord.parse? (lineCode line)) := by
  rcases h with hnil | hsome
  · rw [lineWord_of_nil hnil, hnil]
    rfl
  · obtain ⟨w, hw⟩ := Option.isSome_iff_exists.mp hsome
    obtain ⟨s, htext, rfl⟩ := HexWord.exists_spelling_of_parse? hw
    rw [lineWord_of_text htext.symm, hw]

/-- A line whose code cannot be read is reported. -/
theorem lineWord_of_unreadable {line : List Char} (h : ¬ Readable (lineCode line)) (number : Nat) :
    lineWord number line = .error (.invalidHexWord number (String.ofList (lineCode line))) := by
  obtain ⟨hne, hnone⟩ := not_or.mp h
  have hempty : ¬ (lineCode line).isEmpty = true := fun h => hne (List.isEmpty_iff.mp h)
  unfold lineWord
  dsimp only
  rw [if_neg hempty, Option.not_isSome_iff_eq_none.mp hnone]

/-- The loop over the codes finds what the reader finds in the lines. -/
theorem readCodes_map_lineCode (number : Nat) (ls : List (List Char)) :
    readCodes number (ls.map lineCode) = (do
      let found ← (ls.zipIdx number).mapM fun p => lineWord p.2 p.1
      return found.reduceOption) := by
  induction ls generalizing number with
  | nil => rfl
  | cons line ls ih =>
      rw [List.zipIdx_cons, List.mapM_cons, List.map_cons]
      by_cases hline : Readable (lineCode line)
      · rw [readCodes_cons_of_readable hline, ih (number + 1), lineWord_of_readable hline]
        generalize (ls.zipIdx (number + 1)).mapM (fun p => lineWord p.2 p.1) = rest
        rcases rest with f | found
        · rfl
        · rcases HexWord.parse? (lineCode line) with _ | w <;> rfl
      · rw [readCodes_cons_of_unreadable hline, lineWord_of_unreadable hline]
        rfl

/-- **The reader is the loop over the codes of the lines**, which are numbered from one. -/
theorem readHex_eq_readCodes (bytes : List UInt8) :
    readHex bytes = readCodes 1 ((lines (Utf8.decode bytes)).map lineCode) :=
  (readCodes_map_lineCode 1 _).symm

/-- Only codes that are not empty have words. -/
theorem map_some_filterMap_parse? {codes : List (List Char)} (h : ∀ code ∈ codes, Readable code) :
    (codes.filterMap HexWord.parse?).map some = (codes.filter (· ≠ [])).map HexWord.parse? := by
  induction codes with
  | nil => rfl
  | cons code codes ih =>
      obtain ⟨hcode, hcodes⟩ := List.forall_mem_cons.mp h
      rcases hcode with rfl | hsome
      · exact ih hcodes
      · obtain ⟨w, hw⟩ := Option.isSome_iff_exists.mp hsome
        have hkeep : decide (code ≠ []) = true := decide_eq_true (ne_nil_of_parse? hw)
        rw [List.filterMap_cons_some hw, List.map_cons, List.filter_cons, if_pos hkeep,
          List.map_cons, hw, ih hcodes]

/-- The code of a line is part of the line. -/
theorem mem_of_mem_lineCode {line : List Char} {c : Char} (h : c ∈ lineCode line) : c ∈ line := by
  obtain ⟨before, after, comment, hline, -⟩ := isCode_lineCode line
  rw [hline]
  exact List.mem_append_right _ (List.mem_append_left _ h)

end Program

/-- **Lines are judged one by one.** The text is read just if the code of every line is empty or
spells a word, and then as the words of the codes that are not empty, in order. Otherwise the first
line with another code is reported: its number, which counts all lines from one, and its code, which
has neither a comment nor a line feed in it and no white space at its ends. -/
theorem readHex_judges_lines (bytes : List UInt8) :
    let codes := (lines (Utf8.decode bytes)).map Program.lineCode
    (∀ line code, Program.lineCode line = code ↔ Program.IsCode line code) ∧
    ((∃ words, Program.read bytes .hex = .ok words) ↔ ∀ code ∈ codes, Program.Readable code) ∧
    (∀ words, Program.read bytes .hex = .ok words →
      words.map some = (codes.filter (· ≠ [])).map HexWord.parse?) ∧
    (∀ failure, Program.read bytes .hex = .error failure ↔
      ∃ before code after, codes = before ++ code :: after ∧
        (∀ c ∈ before, Program.Readable c) ∧ ¬ Program.Readable code ∧
        failure = .invalidHexWord (before.length + 1) (String.ofList code)) ∧
    (∀ number text, Program.read bytes .hex = .error (.invalidHexWord number text) →
      '#' ∉ text.toList ∧ '\n' ∉ text.toList ∧
        (∀ c ∈ text.toList.head?, c.toNat ∉ whiteSpace) ∧
        ∀ c ∈ text.toList.getLast?, c.toNat ∉ whiteSpace) := by
  intro codes
  have hread : Program.read bytes .hex = Program.readCodes 1 codes :=
    Program.readHex_eq_readCodes bytes
  rw [hread]
  refine ⟨Program.lineCode_eq_iff_isCode, ⟨?_, ?_⟩, ?_, Program.readCodes_eq_error_iff 1 codes, ?_⟩
  · rintro ⟨words, hok⟩
    exact ((Program.readCodes_eq_ok_iff 1 codes words).mp hok).1
  · exact fun hall => ⟨_, Program.readCodes_of_readable hall 1⟩
  · intro words hok
    obtain ⟨hall, rfl⟩ := (Program.readCodes_eq_ok_iff 1 codes words).mp hok
    exact Program.map_some_filterMap_parse? hall
  · intro number text herror
    obtain ⟨before, code, after, hcodes, -, -, hfailure⟩ :=
      (Program.readCodes_eq_error_iff 1 codes _).mp herror
    obtain ⟨-, rfl⟩ := Failure.invalidHexWord.inj hfailure
    have hmem : code ∈ codes := hcodes ▸ List.mem_append_right before List.mem_cons_self
    obtain ⟨line, hline, rfl⟩ := List.mem_map.mp hmem
    obtain ⟨-, -, -, -, -, -, hhash, -, hfirst, hlast⟩ := Program.isCode_lineCode line
    rw [String.toList_ofList]
    refine ⟨hhash, fun hfeed => ?_, hfirst, hlast⟩
    exact lineFeed_not_mem_of_mem_lines hline (Program.mem_of_mem_lineCode hfeed)

/-- A text of three lines whose first and last have words, and the same text with a fault in the
last line: `x y` between a no-break space and a comment. -/
theorem readHex_judges_lines_third :
    let good := Utf8.encode "73\r\n# z\n\u00a00X1_3\t# z".toList
    let faulty := Utf8.encode "73\r\n# z\n\u00a0x y\t# z".toList
    Program.read good .hex = .ok [0x73, 0x13] ∧
      Program.read faulty .hex = .error (.invalidHexWord 3 "x y") ∧
      '#' ∉ "x y".toList ∧ '\n' ∉ "x y".toList := by
  intro good faulty
  obtain ⟨-, hreadable, hwords, -, -⟩ := readHex_judges_lines good
  obtain ⟨-, -, -, hfailure, htext⟩ := readHex_judges_lines faulty
  obtain ⟨words, hok⟩ := hreadable.mpr (by decide +kernel)
  have hsome : words.map some = [0x73, 0x13].map some :=
    (hwords words hok).trans (by decide +kernel)
  have hfaulty := (hfailure (.invalidHexWord 3 "x y")).mpr
    ⟨["73".toList, []], "x y".toList, [], by decide +kernel, by decide +kernel, by decide +kernel,
      by decide +kernel⟩
  obtain ⟨hhash, hfeed, -, -⟩ := htext 3 "x y" hfaulty
  rw [List.map_injective_iff.mpr (Option.some_injective Word) hsome] at hok
  exact ⟨hok, hfaulty, hhash, hfeed⟩

end RiscvListing
