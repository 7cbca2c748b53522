import RiscvListing.Instruction.Record
import RiscvListing.Proofs.Encoding
import RiscvListing.Proofs.Numeral

/-!
# The text of a word can be read back

A line of a listing is read as a sequence of tokens: the names and numerals in it, without what
separates them.

* `tokens`: the longest runs of name characters of a text.
* `Operands.tokens`, `Instruction.tokens_text`: the tokens of an instruction's text are its mnemonic
  and its operands, in the order of the template.
* `Rejection.tokens_message`: the third token of the message about a rejected word is the word.
* `IsText`: texts of name characters and separators, the line end not among them. All lines are such
  texts (`isText_wordText`).
* **Instructions** (`Instruction.eq_of_text_eq`): the text determines the mnemonic and, if they are
  well formed, the operands.
* **Words** (`eq_or_system_of_wordText_eq`): the line of a word, whether it is an instruction or a
  message, determines the word, environment calls apart.

Tokens are what makes this short: names of registers and numerals have different lengths, so the
templates cannot be compared place by place.
-/

namespace RiscvListing

/-! ## Tokens -/

/-- The characters of names and numerals. -/
def isNameChar (c : Char) : Bool := c.isAlphanum || c == '-' || c == '?'

/-- The names and numerals of a text, in order. -/
def tokens (text : List Char) : List (List Char) :=
  (text.splitOnP (!isNameChar ·)).filter (· ≠ [])

/-- A text that is one name or numeral. -/
def IsToken (text : List Char) : Prop := text ≠ [] ∧ ∀ c ∈ text, isNameChar c = true

instance (text : List Char) : Decidable (IsToken text) :=
  decidable_of_iff (text ≠ [] ∧ text.all isNameChar) (by simp [IsToken])

theorem IsToken.tokens_eq {text : List Char} (h : IsToken text) : tokens text = [text] := by
  have hsplit : text.splitOnP (!isNameChar ·) = [text] :=
    List.splitOnP_eq_singleton fun c hc => by simp [h.2 c hc]
  unfold tokens
  rw [hsplit]
  simp [h.1]

/-- A text without names and numerals. -/
def IsSeparator (text : List Char) : Prop := text ≠ [] ∧ ∀ c ∈ text, isNameChar c = false

instance (text : List Char) : Decidable (IsSeparator text) :=
  decidable_of_iff (text ≠ [] ∧ text.all (!isNameChar ·)) (by simp [IsSeparator])

/-- Tokens do not go beyond a character that belongs to none. -/
theorem tokens_append_cons {c : Char} (hc : isNameChar c = false) (xs ys : List Char) :
    tokens (xs ++ c :: ys) = tokens xs ++ tokens ys := by
  have hsplit : (xs ++ c :: ys).splitOnP (!isNameChar ·) =
      xs.splitOnP (!isNameChar ·) ++ ys.splitOnP (!isNameChar ·) :=
    List.splitOnP_append_cons xs ys (by simp [hc])
  simp only [tokens, hsplit, List.filter_append]

/-- Tokens do not go beyond a separator. -/
theorem IsSeparator.tokens_append {sep : List Char} (h : IsSeparator sep) (xs ys : List Char) :
    tokens (xs ++ (sep ++ ys)) = tokens xs ++ tokens ys := by
  obtain ⟨hne, hchars⟩ := h
  induction sep generalizing xs with
  | nil => exact absurd rfl hne
  | cons c rest ih =>
      rw [List.cons_append, tokens_append_cons (hchars c List.mem_cons_self)]
      rcases rest with _ | ⟨d, rest⟩
      · rfl
      · have hrest := ih [] (List.cons_ne_nil d rest)
          fun e he => hchars e (List.mem_cons_of_mem c he)
        exact congrArg (tokens xs ++ ·) hrest

/-- A token ends where a separator stands. -/
theorem IsToken.tokens_append {text sep : List Char} (h : IsToken text) (hsep : IsSeparator sep)
    (rest : List Char) : tokens (text ++ (sep ++ rest)) = text :: tokens rest := by
  rw [hsep.tokens_append, h.tokens_eq]
  rfl

theorem IsToken.tokens_append_separator {text sep : List Char} (h : IsToken text)
    (hsep : IsSeparator sep) : tokens (text ++ sep) = [text] := by
  have hend := h.tokens_append hsep []
  rwa [List.append_nil] at hend

/-! ## Names and numerals are tokens -/

theorem IsToken.append {s t : String} (hs : IsToken s.toList)
    (ht : ∀ c ∈ t.toList, isNameChar c = true) : IsToken (s ++ t).toList := by
  rw [String.toList_append]
  refine ⟨List.append_ne_nil_of_left_ne_nil hs.1 _, fun c hc => ?_⟩
  rcases List.mem_append.mp hc with hc | hc
  · exact hs.2 c hc
  · exact ht c hc

theorem isNameChar_digitChar {d : Nat} (h : d < 16) : isNameChar (Nat.digitChar d) = true := by
  decide +revert

theorem Numeral.isToken_natural (n : Nat) : IsToken (natural n).toList := by
  refine ⟨by simp, fun c hc => ?_⟩
  have hdigit := isDigit_of_mem_natural hc
  simp [isNameChar, Char.isAlphanum, hdigit]

theorem Numeral.isToken_decimal (n : Int) : IsToken (decimal n).toList := by
  rcases n with n | n
  · exact isToken_natural n
  · have hsign : IsToken "-".toList := by decide
    exact hsign.append (isToken_natural (n + 1)).2

theorem Register.isToken_text (index : Nat) (names : RegisterNames) :
    IsToken (text index names).toList := by
  rcases names with _ | _
  · have hx : IsToken "x".toList := by decide
    exact hx.append (Numeral.isToken_natural index).2
  · have hnames : ∀ name ∈ abiNames, IsToken name.toList := by decide
    rcases hname : abiNames[index]? with _ | name
    · rw [text, abiName, hname]
      decide
    · rw [text, abiName, hname]
      exact hnames name (List.mem_of_getElem? hname)

theorem Mnemonic.isToken_name (m : Mnemonic) : IsToken m.name.toList := by
  cases m <;> decide

/-! ## Names are not shared -/

/-- Different registers have different names in either spelling. -/
theorem Register.text_inj {i j : Nat} {names : RegisterNames} (hi : i < 32) (hj : j < 32) :
    text i names = text j names ↔ i = j := by
  refine ⟨fun h => ?_, fun h => h ▸ rfl⟩
  rcases names with _ | _
  · apply Numeral.natural_injective
    apply String.toList_injective
    have hlist := congrArg String.toList h
    simpa only [text, String.toList_append, List.append_cancel_left_eq] using hlist
  · have hnodup : abiNames.Nodup := by decide
    exact (List.getD_inj hi hj hnodup).mp h

/-- The spelling of a mnemonic leads back to it. -/
theorem Mnemonic.ofName?_name (m : Mnemonic) : ofName? m.name = some m := by
  cases m <;> rfl

theorem Mnemonic.name_injective : Function.Injective name := by
  intro m m' h
  have hsome : some m = some m' := by rw [← ofName?_name, ← ofName?_name, h]
  exact Option.some.inj hsome

/-! ## Instructions -/

/-- The operands as they are spelled, in the order of the template. -/
def Operands.tokens (names : RegisterNames) : Operands → List String
  | .registers rd rs1 rs2 =>
    [Register.text rd names, Register.text rs1 names, Register.text rs2 names]
  | .immediate rd rs1 imm =>
    [Register.text rd names, Register.text rs1 names, Numeral.decimal imm]
  | .shift rd rs1 shamt =>
    [Register.text rd names, Register.text rs1 names, Numeral.natural shamt]
  | .load rd rs1 offset =>
    [Register.text rd names, Numeral.decimal offset, Register.text rs1 names]
  | .store rs1 rs2 offset =>
    [Register.text rs2 names, Numeral.decimal offset, Register.text rs1 names]
  | .branch rs1 rs2 offset =>
    [Register.text rs1 names, Register.text rs2 names, Numeral.decimal offset]
  | .upper rd imm => [Register.text rd names, Numeral.natural imm]
  | .jump rd offset => [Register.text rd names, Numeral.decimal offset]
  | .bare => []

/-- The tokens of an instruction's text are its mnemonic and its operands. -/
theorem Instruction.tokens_text (i : Instruction) (names : RegisterNames) :
    tokens (i.text names).toList =
      (i.mnemonic.name :: i.operands.tokens names).map String.toList := by
  obtain ⟨raw, m, ops⟩ := i
  have hname := m.isToken_name
  have hreg := fun index => Register.isToken_text index names
  have hnat := Numeral.isToken_natural
  have hint := Numeral.isToken_decimal
  have htab : IsSeparator "\t".toList := by decide
  have hcomma : IsSeparator ", ".toList := by decide
  have hopen : IsSeparator "(".toList := by decide
  have hclose : IsSeparator ")".toList := by decide
  unfold text pieces
  rw [String.toList_join]
  cases ops <;>
    simp only [Operands.pieces, Operands.tokens, List.flatMap_cons, List.flatMap_nil, List.map_cons,
      List.map_nil, List.append_nil, hname.tokens_append htab, (hreg _).tokens_append hcomma,
      (hint _).tokens_append hopen, (hreg _).tokens_append_separator hclose, (hreg _).tokens_eq,
      (hnat _).tokens_eq, (hint _).tokens_eq, hname.tokens_eq]

/-- Operands of one shape that are in range are told apart by their tokens. -/
theorem Operands.eq_of_tokens_eq {a b : Operands} {names : RegisterNames}
    (hshape : a.shape = b.shape) (ha : a.InRange) (hb : b.InRange)
    (h : a.tokens names = b.tokens names) : a = b := by
  cases a <;> cases b <;> simp only [shape, reduceCtorEq] at hshape <;>
    simp only [tokens, InRange, List.cons.injEq] at * <;>
    grind [Register.text_inj, Numeral.natural_injective, Numeral.decimal_injective]

/-- **The text determines the instruction**: the mnemonic and, if they are well formed, the
operands. -/
theorem Instruction.eq_of_text_eq {i j : Instruction} {names : RegisterNames}
    (hi : WellFormed i.mnemonic i.operands) (hj : WellFormed j.mnemonic j.operands)
    (h : i.text names = j.text names) :
    i.mnemonic = j.mnemonic ∧ i.operands = j.operands := by
  have htokens : (i.mnemonic.name :: i.operands.tokens names).map String.toList =
      (j.mnemonic.name :: j.operands.tokens names).map String.toList := by
    rw [← Instruction.tokens_text, ← Instruction.tokens_text, h]
  have hstrings := (List.map_inj_right fun _ _ => String.toList_inj.mp).mp htokens
  obtain ⟨hname, hops⟩ := List.cons.inj hstrings
  have hm := Mnemonic.name_injective hname
  have hshape : i.operands.shape = j.operands.shape := by rw [hi.1, hj.1, hm]
  exact ⟨hm, Operands.eq_of_tokens_eq hshape hi.2 hj.2 hops⟩

/-! ## Rejected words -/

theorem Numeral.isToken_hexPadded (n : Nat) : IsToken ("0x" ++ hexPadded 8 n).toList := by
  obtain ⟨ds, hlt, htext, -⟩ := exists_digits_hexPadded 8 n
  have hmark : IsToken "0x".toList := by decide
  refine hmark.append fun c hc => ?_
  rw [htext] at hc
  obtain ⟨d, hd, rfl⟩ := List.mem_map.mp hc
  exact isNameChar_digitChar (hlt d hd)

/-- The message about a rejected word names the word in its third token. -/
theorem Rejection.tokens_message (r : Rejection) :
    ∃ rest, tokens r.message.toList =
      "Invalid".toList :: "Instruction".toList ::
        ("0x" ++ Numeral.hexPadded 8 r.raw.toNat).toList :: rest := by
  have hinvalid : IsToken "Invalid".toList := by decide
  have hinstruction : IsToken "Instruction".toList := by decide
  have hraw := Numeral.isToken_hexPadded r.raw.toNat
  have hspace : IsSeparator " ".toList := by decide
  have hcolon : IsSeparator ": ".toList := by decide
  have hopen : IsSeparator " (".toList := by decide
  have hmark : "Invalid Instruction: 0x" =
      "Invalid" ++ (" " ++ ("Instruction" ++ (": " ++ "0x"))) := by decide
  have hopcode : " (opcode 0x" = " (" ++ "opcode 0x" := by decide
  have hmessage : r.message =
      "Invalid" ++ (" " ++ ("Instruction" ++ (": " ++
        ("0x" ++ Numeral.hexPadded 8 r.raw.toNat ++ (" (" ++
          ("opcode 0x" ++ Numeral.hexPadded 2 r.opcode ++ ", unmatched " ++ r.unmatched.text ++
            ")")))))) := by
    unfold message
    rw [hmark, hopcode]
    simp only [String.append_assoc]
  generalize "0x" ++ Numeral.hexPadded 8 r.raw.toNat = raw at hmessage hraw ⊢
  rw [hmessage, String.toList_append, String.toList_append, String.toList_append,
    String.toList_append, String.toList_append, String.toList_append,
    hinvalid.tokens_append hspace, hinstruction.tokens_append hcolon, hraw.tokens_append hopen]
  exact ⟨_, rfl⟩

/-- The message determines the rejected word. -/
theorem Rejection.raw_eq_of_message_eq {r s : Rejection} (h : r.message = s.message) :
    r.raw = s.raw := by
  obtain ⟨rest, hr⟩ := r.tokens_message
  obtain ⟨rest', hs⟩ := s.tokens_message
  rw [h, hs] at hr
  simp only [List.cons.injEq, true_and, String.toList_append, List.append_cancel_left_eq] at hr
  have hparse := congrArg HexWord.parse? hr.1
  rw [HexWord.parse?_hexPadded, HexWord.parse?_hexPadded] at hparse
  exact (Option.some.inj hparse).symm

/-- No instruction reads like the message about a rejected word. -/
theorem Instruction.text_ne_message (i : Instruction) (names : RegisterNames) (r : Rejection) :
    i.text names ≠ r.message := by
  intro h
  obtain ⟨rest, hr⟩ := r.tokens_message
  rw [← h, Instruction.tokens_text] at hr
  have hname : i.mnemonic.name.toList = "Invalid".toList := (List.cons.inj hr).1
  have hnone : ∀ m ∈ Mnemonic.all, m.name.toList ≠ "Invalid".toList := by decide
  exact hnone i.mnemonic (Mnemonic.mem_all _) hname

/-! ## The characters of a line -/

/-- The characters of names and numerals and those that separate them. -/
def isTextChar (c : Char) : Bool := isNameChar c || "\t ,():".toList.contains c

/-- A text that may stand in a line. -/
def IsText (text : String) : Prop := ∀ c ∈ text.toList, isTextChar c = true

instance (text : String) : Decidable (IsText text) :=
  decidable_of_iff (text.toList.all isTextChar) (by simp [IsText])

theorem IsToken.isText {text : String} (h : IsToken text.toList) : IsText text := by
  intro c hc
  simp [isTextChar, h.2 c hc]

theorem IsText.append {s t : String} (hs : IsText s) (ht : IsText t) : IsText (s ++ t) := by
  intro c hc
  rw [String.toList_append] at hc
  rcases List.mem_append.mp hc with hc | hc
  · exact hs c hc
  · exact ht c hc

theorem isText_join {pieces : List String} (h : ∀ piece ∈ pieces, IsText piece) :
    IsText (String.join pieces) := by
  intro c hc
  rw [String.toList_join] at hc
  obtain ⟨piece, hmem, hc⟩ := List.mem_flatMap.mp hc
  exact h piece hmem c hc

theorem isText_digits {text : String} {ds : List Nat} (hlt : ∀ d ∈ ds, d < 16)
    (htext : text.toList = ds.map Nat.digitChar) : IsText text := by
  intro c hc
  rw [htext] at hc
  obtain ⟨d, hd, rfl⟩ := List.mem_map.mp hc
  simp [isTextChar, isNameChar_digitChar (hlt d hd)]

theorem Numeral.isText_hexPadded (width n : Nat) : IsText (hexPadded width n) := by
  obtain ⟨ds, hlt, htext, -⟩ := exists_digits_hexPadded width n
  exact isText_digits hlt htext

theorem Numeral.isText_hex (n : Nat) : IsText (hex n) := by
  obtain ⟨ds, hlt, htext, -⟩ := exists_digits_toDigits n
  exact isText_digits hlt (String.toList_ofList.trans htext)

/-- An instruction is written in text characters, also one with registers that do not exist. -/
theorem Instruction.isText_text (i : Instruction) (names : RegisterNames) :
    IsText (i.text names) := by
  have hreg := fun index => (Register.isToken_text index names).isText
  have hnat := fun n => (Numeral.isToken_natural n).isText
  have hint := fun n => (Numeral.isToken_decimal n).isText
  have htab : IsText "\t" := by decide
  have hcomma : IsText ", " := by decide
  have hopen : IsText "(" := by decide
  have hclose : IsText ")" := by decide
  apply isText_join
  obtain ⟨raw, m, ops⟩ := i
  refine List.forall_mem_cons.mpr ⟨m.isToken_name.isText, ?_⟩
  cases ops <;> simp [Operands.pieces, hreg, hnat, hint, htab, hcomma, hopen, hclose]

theorem Unmatched.isText_text (u : Unmatched) : IsText u.text := by
  rcases u with _ | v | v | v
  · decide
  · exact IsText.append (by decide) (Numeral.isText_hex v)
  · exact IsText.append (by decide) (Numeral.isText_hexPadded 2 v)
  · exact IsText.append (by decide) (Numeral.isText_hexPadded 2 v)

/-- The message about a rejected word is written in text characters. -/
theorem Rejection.isText_message (r : Rejection) : IsText r.message := by
  have hinvalid : IsText "Invalid Instruction: 0x" := by decide
  have hopcode : IsText " (opcode 0x" := by decide
  have hunmatched : IsText ", unmatched " := by decide
  have hclose : IsText ")" := by decide
  have hraw := (hinvalid.append (Numeral.isText_hexPadded 8 r.raw.toNat)).append hopcode
  have hvalue := (hraw.append (Numeral.isText_hexPadded 2 r.opcode)).append hunmatched
  exact (hvalue.append r.unmatched.isText_text).append hclose

/-! ## The line of a word -/

/-- What a listing shows for a word: its instruction or the message about it. -/
def wordText (names : RegisterNames) (w : Word) : String :=
  match decode w with
  | .ok i => i.text names
  | .error r => r.message

theorem isText_wordText (names : RegisterNames) (w : Word) : IsText (wordText names w) := by
  unfold wordText
  split
  · exact Instruction.isText_text _ names
  · exact Rejection.isText_message _

/-- A rejection keeps the word. -/
theorem raw_of_decode_eq_error {w : Word} {r : Rejection} (h : decode w = .error r) :
    r.raw = w := by
  unfold decode Parsed.resolve at h
  split at h
  · exact nomatch h
  · obtain rfl := Except.error.inj h
    rfl

/-- Words that decode to the same mnemonic and operands are equal or both environment calls. -/
theorem eq_or_system_of_decode {w v : Word} {i j : Instruction} (hw : decode w = .ok i)
    (hv : decode v = .ok j) (hm : i.mnemonic = j.mnemonic) (hops : i.operands = j.operands) :
    w = v ∨ Word.opcode w = Opcode.system ∧ Word.opcode v = Opcode.system := by
  have hwop : Word.opcode w = i.mnemonic.selectors.opcode := (decode_eq_ok_iff.1 hw).1.1
  have hvop : Word.opcode v = j.mnemonic.selectors.opcode := (decode_eq_ok_iff.1 hv).1.1
  have hop : Word.opcode v = Word.opcode w := by rw [hwop, hvop, hm]
  by_cases hsys : Word.opcode w = Opcode.system
  · exact .inr ⟨hsys, hop.trans hsys⟩
  · left
    calc w = encode i.mnemonic i.operands := (encode_of_decode hw hsys).symm
      _ = encode j.mnemonic j.operands := by rw [hm, hops]
      _ = v := encode_of_decode hv (hop ▸ hsys)

/-- **The line determines the word**, environment calls apart. -/
theorem eq_or_system_of_wordText_eq {names : RegisterNames} {w v : Word}
    (h : wordText names w = wordText names v) :
    w = v ∨ Word.opcode w = Opcode.system ∧ Word.opcode v = Opcode.system := by
  unfold wordText at h
  rcases hw : decode w with r | i <;> rcases hv : decode v with s | j <;>
    simp only [hw, hv] at h
  · left
    rw [← raw_of_decode_eq_error hw, ← raw_of_decode_eq_error hv]
    exact Rejection.raw_eq_of_message_eq h
  · exact absurd h.symm (Instruction.text_ne_message j names r)
  · exact absurd h (Instruction.text_ne_message i names s)
  · obtain ⟨hm, hops⟩ :=
      Instruction.eq_of_text_eq (wellFormed_of_decode hw) (wellFormed_of_decode hv) h
    exact eq_or_system_of_decode hw hv hm hops

end RiscvListing
