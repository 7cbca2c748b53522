import RiscvListing.Proofs.RecordText

/-!
# The two spellings of registers

A record with numeric register names can be turned into the one with the names of the calling
convention, and back, by looking at its text only.

* `mapTokens`, `mapOperands`: the tokens of a text, and those after its first tab, replaced by
  others. What stands between tokens is copied.
* `Register.read?`: the register that a token spells. A register is read back from either spelling
  (`Register.read?_text`), and no numeral is read as a register (`Register.read?_eq_none`).
* `respell`: a text with the registers after its first tab in the other spelling.
* **Each spelling determines the other** (`spellings_determine_each_other`).
-/

namespace RiscvListing

/-! ## Replacing tokens -/

/-- A text with its tokens replaced; `token` is what has been read of the first one. A token ends at
a comma with a space, at a parenthesis and at the end of the line. -/
def mapTokens (f : List Char → List Char) (token : List Char) : List Char → List Char
  | [] => f token
  | ',' :: ' ' :: rest => f token ++ ',' :: ' ' :: mapTokens f [] rest
  | '(' :: rest => f token ++ '(' :: mapTokens f [] rest
  | ')' :: rest => f token ++ ')' :: mapTokens f [] rest
  | '\n' :: rest => f token ++ '\n' :: mapTokens f [] rest
  | c :: rest => mapTokens f (token ++ [c]) rest

/-- A text with the tokens after its first tab replaced. -/
def mapOperands (f : List Char → List Char) : List Char → List Char
  | [] => []
  | '\t' :: rest => '\t' :: mapTokens f [] rest
  | c :: rest => c :: mapOperands f rest

/-- What ends a token. -/
def separators : List String := [", ", "(", ")", "\n"]

section

variable (f : List Char → List Char)

theorem mapTokens_cons {c : Char} (hc : isNameChar c = true) (token rest : List Char) :
    mapTokens f token (c :: rest) = mapTokens f (token ++ [c]) rest := by
  have hcomma : c ≠ ',' := by rintro rfl; exact absurd hc (by decide)
  have hopen : c ≠ '(' := by rintro rfl; exact absurd hc (by decide)
  have hclose : c ≠ ')' := by rintro rfl; exact absurd hc (by decide)
  have hend : c ≠ '\n' := by rintro rfl; exact absurd hc (by decide)
  rw [mapTokens] <;> simp [hcomma, hopen, hclose, hend]

/-- Name characters belong to one token. -/
theorem mapTokens_append {text : List Char} (h : ∀ c ∈ text, isNameChar c = true)
    (token rest : List Char) :
    mapTokens f token (text ++ rest) = mapTokens f (token ++ text) rest := by
  induction text generalizing token with
  | nil => simp
  | cons c text ih =>
      have hrest := ih fun d hd => h d (List.mem_cons_of_mem c hd)
      rw [List.cons_append, mapTokens_cons f (h c List.mem_cons_self), hrest, List.append_assoc,
        List.singleton_append]

/-- A token ends at each of the separators, which are copied. -/
theorem mapTokens_separator {sep : String} (hsep : sep ∈ separators)
    (token rest : List Char) :
    mapTokens f token (sep.toList ++ rest) = f token ++ (sep.toList ++ mapTokens f [] rest) := by
  simp only [separators, List.mem_cons, List.not_mem_nil, or_false] at hsep
  rcases hsep with rfl | rfl | rfl | rfl <;> rfl

/-- A token with a separator after it is replaced. -/
theorem mapTokens_token {text : String} (h : IsToken text.toList) {sep : String}
    (hsep : sep ∈ separators) (rest : List Char) :
    mapTokens f [] (text.toList ++ (sep.toList ++ rest)) =
      f text.toList ++ (sep.toList ++ mapTokens f [] rest) := by
  rw [mapTokens_append f h.2, List.nil_append, mapTokens_separator f hsep]

theorem mapOperands_cons {c : Char} (hc : c ≠ '\t') (rest : List Char) :
    mapOperands f (c :: rest) = c :: mapOperands f rest := by
  rw [mapOperands]
  simp [hc]

/-- What stands before the first tab is copied. -/
theorem mapOperands_append {text : List Char} (h : '\t' ∉ text) (rest : List Char) :
    mapOperands f (text ++ rest) = text ++ mapOperands f rest := by
  induction text with
  | nil => rfl
  | cons c text ih =>
      have hc : c ≠ '\t' := fun hc => h (hc ▸ List.mem_cons_self)
      have htext : '\t' ∉ text := fun hmem => h (List.mem_cons_of_mem c hmem)
      rw [List.cons_append, mapOperands_cons f hc, ih htext, List.cons_append]

end

/-! ## Reading a register -/

namespace Register

/-- The register that a token spells: `x` with a number, or a name of the calling convention. -/
def read? : RegisterNames → List Char → Option Nat
  | .numeric, 'x' :: digits =>
    if digits ≠ [] ∧ digits.all Char.isDigit then some (Nat.ofDigitChars 10 digits 0) else none
  | .numeric, _ => none
  | .abi, token => abiNames.findIdx? fun name => name.toList = token

/-- Numbers are read back, also those of registers that do not exist. -/
theorem read?_numeric (index : Nat) :
    read? .numeric (text index .numeric).toList = some index := by
  have htext : (text index .numeric).toList = 'x' :: Nat.toDigits 10 index := by
    rw [text, String.toList_append, Numeral.toList_natural]
    rfl
  have hdigits : (Nat.toDigits 10 index).all Char.isDigit = true := by
    rw [List.all_eq_true]
    intro c hc
    exact Nat.isDigit_of_mem_toDigits (by decide) (by decide) hc
  rw [htext, read?, if_pos ⟨by simp, hdigits⟩, Nat.ofDigitChars_ten_toDigits]

/-- The names of the calling convention are read back. -/
theorem read?_abi {index : Nat} (h : index < 32) :
    read? .abi (text index .abi).toList = some index := by
  decide +revert

theorem read?_text {index : Nat} (h : index < 32) (names : RegisterNames) :
    read? names (text index names).toList = some index := by
  cases names with
  | numeric => exact read?_numeric index
  | abi => exact read?_abi h

/-- Digits and minus signs alone spell no register. -/
theorem read?_eq_none (names : RegisterNames) {token : List Char}
    (h : ∀ c ∈ token, c.isDigit = true ∨ c = '-') : read? names token = none := by
  cases names with
  | numeric =>
      unfold read?
      split
      · exact absurd (h 'x' List.mem_cons_self) (by decide)
      · rfl
      · contradiction
  | abi =>
      have hletter : ∀ name ∈ abiNames, name.toList.any (fun c => !(c.isDigit || c == '-')) := by
        decide
      rw [read?, List.findIdx?_eq_none_iff]
      intro name hname
      obtain ⟨c, hc, hnot⟩ := List.any_eq_true.mp (hletter name hname)
      refine decide_eq_false ?_
      rintro rfl
      rcases h c hc with hdigit | rfl
      · simp [hdigit] at hnot
      · exact absurd hnot (by decide)

end Register

/-! ## The other spelling -/

/-- A token in the new spelling, if it is a register in the old one. -/
def respellToken (old new : RegisterNames) (token : List Char) : List Char :=
  match Register.read? old token with
  | some index => (Register.text index new).toList
  | none => token

/-- A text with the registers after its first tab in the new spelling. -/
def respell (old new : RegisterNames) (text : String) : String :=
  String.ofList (mapOperands (respellToken old new) text.toList)

section

variable {old new : RegisterNames}

theorem respellToken_register {index : Nat} (h : index < 32) :
    respellToken old new (Register.text index old).toList = (Register.text index new).toList := by
  rw [respellToken, Register.read?_text h]

/-- Numerals are kept, and so is the empty text between two separators. -/
theorem respellToken_eq_self {token : List Char} (h : ∀ c ∈ token, c.isDigit = true ∨ c = '-') :
    respellToken old new token = token := by
  rw [respellToken, Register.read?_eq_none old h]

theorem mapTokens_register {index : Nat} (h : index < 32) {sep : String} (hsep : sep ∈ separators)
    (rest : List Char) :
    mapTokens (respellToken old new) [] ((Register.text index old).toList ++ (sep.toList ++ rest)) =
      (Register.text index new).toList ++
        (sep.toList ++ mapTokens (respellToken old new) [] rest) := by
  rw [mapTokens_token _ (Register.isToken_text index old) hsep, respellToken_register h]

theorem mapTokens_natural (n : Nat) {sep : String} (hsep : sep ∈ separators) (rest : List Char) :
    mapTokens (respellToken old new) [] ((Numeral.natural n).toList ++ (sep.toList ++ rest)) =
      (Numeral.natural n).toList ++ (sep.toList ++ mapTokens (respellToken old new) [] rest) := by
  rw [mapTokens_token _ (Numeral.isToken_natural n) hsep, respellToken_eq_self]
  exact fun _ hc => .inl (Numeral.isDigit_of_mem_natural hc)

theorem mapTokens_decimal (n : Int) {sep : String} (hsep : sep ∈ separators) (rest : List Char) :
    mapTokens (respellToken old new) [] ((Numeral.decimal n).toList ++ (sep.toList ++ rest)) =
      (Numeral.decimal n).toList ++ (sep.toList ++ mapTokens (respellToken old new) [] rest) := by
  rw [mapTokens_token _ (Numeral.isToken_decimal n) hsep, respellToken_eq_self]
  intro c hc
  rcases n with n | n
  · exact .inl (Numeral.isDigit_of_mem_natural hc)
  · rw [Numeral.decimal, String.toList_append] at hc
    rcases List.mem_append.mp hc with hc | hc
    · exact .inr (List.mem_singleton.mp hc)
    · exact .inl (Numeral.isDigit_of_mem_natural hc)

end

/-- Records with registers that exist can be respelled, whatever their mnemonic. -/
theorem Instruction.respell_record {i : Instruction} (h : i.operands.InRange)
    (old new : RegisterNames) : respell old new (i.record old) = i.record new := by
  obtain ⟨raw, m, ops⟩ := i
  apply String.toList_injective
  have hname : '\t' ∉ m.name.toList := fun htab => absurd (m.isToken_name.2 _ htab) (by decide)
  have hcomma : ", " ∈ separators := by decide
  have hopen : "(" ∈ separators := by decide
  have hclose : ")" ∈ separators := by decide
  have hend : "\n" ∈ separators := by decide
  have htab : ∀ f rest, mapOperands f ("\t".toList ++ rest) = "\t".toList ++ mapTokens f [] rest :=
    fun _ _ => rfl
  have hnil : respellToken old new [] = [] := respellToken_eq_self (by simp)
  -- the line end is kept apart, as the separator behind the last operand
  have hrecord : ∀ names, (Instruction.record ⟨raw, m, ops⟩ names).toList =
      m.name.toList ++ ((ops.pieces names).flatMap String.toList ++ ("\n".toList ++ [])) := by
    intro names
    rw [record, text, pieces, String.toList_append, String.toList_join]
    simp
  rw [respell, String.toList_ofList, hrecord, hrecord, mapOperands_append _ hname]
  cases ops with
  | bare => rfl
  | _ =>
      simp only [Operands.InRange] at h
      simp only [Operands.pieces, List.flatMap_cons, List.flatMap_nil, List.append_assoc,
        List.nil_append, htab, mapTokens_register, mapTokens_natural, mapTokens_decimal,
        mapTokens_separator, mapTokens, hcomma, hopen, hclose, hend, hnil, h]

/-- **Each spelling determines the other.** If a word decodes, the record with numeric names becomes
the record with the names of the calling convention by replacing `x` and a number, where that is a
whole token after the tab, by the name of that register; and replacing the names by the numbers
leads back. -/
theorem spellings_determine_each_other {w : Word} {i : Instruction} (h : decode w = .ok i) :
    respell .numeric .abi (i.record .numeric) = i.record .abi ∧
      respell .abi .numeric (i.record .abi) = i.record .numeric := by
  have hrange := (wellFormed_of_decode h).2
  exact ⟨Instruction.respell_record hrange .numeric .abi,
    Instruction.respell_record hrange .abi .numeric⟩

/-- A load whose registers have names that begin alike, one of them right behind an offset. -/
theorem spellings_determine_each_other_load :
    let i : Instruction := ⟨0xFF84AD83, .lw, .load 27 9 (-8)⟩
    decode 0xFF84AD83 = .ok i ∧
      respell .numeric .abi "lw\tx27, -8(x9)\n" = "lw\ts11, -8(s1)\n" ∧
      respell .abi .numeric "lw\ts11, -8(s1)\n" = "lw\tx27, -8(x9)\n" := by
  intro i
  have hi : decode 0xFF84AD83 = .ok i := by decide
  have hnumeric : i.record .numeric = "lw\tx27, -8(x9)\n" := by decide
  have habi : i.record .abi = "lw\ts11, -8(s1)\n" := by decide
  rw [← hnumeric, ← habi]
  exact ⟨hi, spellings_determine_each_other hi⟩

end RiscvListing
