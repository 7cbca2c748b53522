import RiscvListing.Proofs.Dispatch

/-!
# What a rejection names

A word is rejected at the first selector that matches nothing, said here by the table of selectors
and not by the dispatch.

* `Mnemonic.HasOpcode`, `Mnemonic.HasFunct3`, `Mnemonic.HasFunct7`: some mnemonic of the table has
  the selectors, one more of them each time.
* `Unmatched.IsFirst`: the selector matches nothing in the table, while those before it do. Only
  two opcodes have a third selector, and each has its own name for it.
* **The dispatch stops at the first one** (`isFirst_of_decode`), from one lemma for each dispatch
  below an opcode.
* **Rejections in full** (`rejection_names_first_unmatched`): a rejection carries its word, and its
  selector tells which part of the table the word missed.
-/

namespace RiscvListing

/-! ## Selectors in the table -/

namespace Mnemonic

/-- Some mnemonic has the opcode. -/
def HasOpcode (opcode : Nat) : Prop := ∃ m ∈ all, m.selectors.opcode = opcode

/-- Some mnemonic of the opcode has the second selector. -/
def HasFunct3 (opcode funct3 : Nat) : Prop :=
  ∃ m ∈ all, m.selectors.opcode = opcode ∧ m.selectors.funct3 = some funct3

/-- Some mnemonic of the opcode and the second selector has the third one. -/
def HasFunct7 (opcode funct3 funct7 : Nat) : Prop :=
  ∃ m ∈ all, m.selectors.opcode = opcode ∧ m.selectors.funct3 = some funct3 ∧
    m.selectors.funct7 = some funct7

instance (opcode : Nat) : Decidable (HasOpcode opcode) :=
  inferInstanceAs (Decidable (∃ m ∈ all, _))

instance (opcode funct3 : Nat) : Decidable (HasFunct3 opcode funct3) :=
  inferInstanceAs (Decidable (∃ m ∈ all, _))

instance (opcode funct3 funct7 : Nat) : Decidable (HasFunct7 opcode funct3 funct7) :=
  inferInstanceAs (Decidable (∃ m ∈ all, _))

theorem HasFunct3.hasOpcode {opcode funct3 : Nat} (h : HasFunct3 opcode funct3) :
    HasOpcode opcode := by
  obtain ⟨m, hm, hop, -⟩ := h
  exact ⟨m, hm, hop⟩

end Mnemonic

open Mnemonic in
/-- The selector is the first that matches nothing in the table. -/
inductive Unmatched.IsFirst (opcode funct3 funct7 : Nat) : Unmatched → Prop where
  /-- No mnemonic has the opcode. -/
  | opcode (h : ¬ HasOpcode opcode) : IsFirst opcode funct3 funct7 .opcode
  /-- The opcode is there, but not with the second selector. -/
  | funct3 (hop : HasOpcode opcode) (h : ¬ HasFunct3 opcode funct3) :
    IsFirst opcode funct3 funct7 (.funct3 funct3)
  /-- Both are there, but not with the third selector. -/
  | funct7 (hop : opcode = Opcode.op) (h3 : HasFunct3 opcode funct3)
    (h : ¬ HasFunct7 opcode funct3 funct7) : IsFirst opcode funct3 funct7 (.funct7 funct7)
  /-- The same for shifts by an immediate. -/
  | shiftType (hop : opcode = Opcode.opImm) (h3 : HasFunct3 opcode funct3)
    (h : ¬ HasFunct7 opcode funct3 funct7) : IsFirst opcode funct3 funct7 (.shiftType funct7)

/-! ## Dispatch below one opcode -/

section

variable {funct3 funct7 : Nat} {u : Unmatched}

theorem isFirst_of_ofArithmetic (h : Mnemonic.ofArithmetic funct3 funct7 = .error u) :
    u.IsFirst Opcode.op funct3 funct7 := by
  -- a mnemonic with all three selectors would have been found
  have hnone : ¬ Mnemonic.HasFunct7 Opcode.op funct3 funct7 := by
    rintro ⟨m, -, hop, h3, h7⟩
    have hs : m.selectors = ⟨Opcode.op, some funct3, some funct7⟩ := by
      rw [← hop, ← h3, ← h7]
    rw [Mnemonic.ofArithmetic_eq_ok_iff.2 hs] at h
    exact nomatch h
  unfold Mnemonic.ofArithmetic at h
  split at h
  case h_8 =>
    cases h
    refine .funct3 (by decide) ?_
    rintro ⟨m, -, hop, h3⟩
    cases m <;> cases hop <;> cases h3 <;> contradiction
  all_goals
    split at h <;> cases h
    exact .funct7 rfl (by decide) hnone

theorem isFirst_of_ofLoad (h : Mnemonic.ofLoad funct3 = .error u) :
    u.IsFirst Opcode.load funct3 funct7 := by
  unfold Mnemonic.ofLoad at h
  split at h <;> cases h
  refine .funct3 (by decide) ?_
  rintro ⟨m, -, hop, h3⟩
  cases m <;> cases hop <;> cases h3 <;> contradiction

theorem isFirst_of_ofStore (h : Mnemonic.ofStore funct3 = .error u) :
    u.IsFirst Opcode.store funct3 funct7 := by
  unfold Mnemonic.ofStore at h
  split at h <;> cases h
  refine .funct3 (by decide) ?_
  rintro ⟨m, -, hop, h3⟩
  cases m <;> cases hop <;> cases h3 <;> contradiction

theorem isFirst_of_ofBranch (h : Mnemonic.ofBranch funct3 = .error u) :
    u.IsFirst Opcode.branch funct3 funct7 := by
  unfold Mnemonic.ofBranch at h
  split at h <;> cases h
  refine .funct3 (by decide) ?_
  rintro ⟨m, -, hop, h3⟩
  cases m <;> cases hop <;> cases h3 <;> contradiction

/-- The shift type stands in for the third selector. -/
theorem isFirst_of_resolveImmediate {rd rs1 imm : Nat}
    (h : resolveImmediate funct3 rd rs1 imm = .error u) :
    u.IsFirst Opcode.opImm funct3 (bitGroup imm 5 7) := by
  unfold resolveImmediate at h
  dsimp only at h
  generalize bitGroup imm 5 7 = shiftType at h ⊢
  split at h
  case h_2 | h_5 =>
    split at h <;> cases h
    refine .shiftType rfl (by decide) ?_
    rintro ⟨m, -, hop, h3, h7⟩
    cases m <;> cases hop <;> cases h3 <;> cases h7 <;> contradiction
  case h_8 =>
    cases h
    refine .funct3 (by decide) ?_
    rintro ⟨m, -, hop, h3⟩
    cases m <;> cases hop <;> cases h3 <;> contradiction
  all_goals cases h

end

/-! ## Words -/

/-- Resolving keeps the word and the opcode, and takes the selector from the dispatch. -/
theorem Parsed.resolve_eq_error_iff {p : Parsed} {r : Rejection} :
    p.resolve = .error r ↔
      resolveFields p.opcode p.fields = .error r.unmatched ∧ r.raw = p.raw ∧
        r.opcode = p.opcode := by
  obtain ⟨raw, opcode, unmatched⟩ := r
  unfold Parsed.resolve
  cases resolveFields p.opcode p.fields with
  | ok found => simp
  | error u =>
      simp only [Except.error.injEq, Rejection.mk.injEq]
      constructor
      · rintro ⟨rfl, rfl, rfl⟩
        exact ⟨rfl, rfl, rfl⟩
      · rintro ⟨rfl, rfl, rfl⟩
        exact ⟨rfl, rfl, rfl⟩

/-- An opcode outside the table is named, whatever the fields. -/
theorem resolveFields_of_not_hasOpcode {opcode : Nat} (hop : ¬ Mnemonic.HasOpcode opcode)
    (fields : Fields) : resolveFields opcode fields = .error .opcode := by
  unfold resolveFields
  split
  case h_9 => rfl
  all_goals exact absurd (by decide) hop

/-- If a dispatch that only finds the mnemonic fails, so does the search. -/
theorem eq_error_of_map_pair {found : Except Unmatched Mnemonic} {ops : Operands} {u : Unmatched}
    (h : found.map (fun m => (m, ops)) = .error u) : found = .error u := by
  rcases found with v | m
  · exact congrArg Except.error (Except.error.inj h)
  · exact nomatch h

/-- **The dispatch stops at the first selector without a match.** -/
theorem isFirst_of_decode {w : Word} {r : Rejection} (h : decode w = .error r) :
    r.unmatched.IsFirst (Word.opcode w) (Word.funct3 w) (Word.funct7 w) := by
  have hfields := (Parsed.resolve_eq_error_iff.1 h).1
  simp only [Parsed.ofWord] at hfields
  by_cases hop : Mnemonic.HasOpcode (Word.opcode w)
  · obtain ⟨m, -, hm⟩ := hop
    rw [← hm] at hfields ⊢
    -- the opcode of the mnemonic decides the layout, and with it the dispatch below
    cases m
    case lb | lh | lw => exact isFirst_of_ofLoad (eq_error_of_map_pair hfields)
    case sb | sh | sw => exact isFirst_of_ofStore (eq_error_of_map_pair hfields)
    case beq | bne => exact isFirst_of_ofBranch (eq_error_of_map_pair hfields)
    case lui | jal | ecall => cases hfields
    case addi | slli | slti | xori | srli | srai | ori | andi =>
      rw [← bitGroup_immediate_high]
      exact isFirst_of_resolveImmediate hfields
    all_goals exact isFirst_of_ofArithmetic (eq_error_of_map_pair hfields)
  · rw [resolveFields_of_not_hasOpcode hop] at hfields
    rw [← Except.error.inj hfields]
    exact .opcode hop

/-- **A rejection names the first dispatch level that fails.** It carries the word, its opcode and
its fields. Its selector is the opcode exactly if no mnemonic has it, the second selector exactly if
some mnemonic has the opcode but none with that second selector, and otherwise the third selector,
which no mnemonic has with the other two; that happens for two opcodes only. -/
theorem rejection_names_first_unmatched {w : Word} {r : Rejection} (h : decode w = .error r) :
    r.raw = w ∧ r.opcode = (w &&& 0x7F).toNat ∧ r.parsed = Parsed.ofWord w ∧
    (r.unmatched = .opcode ↔ ¬ Mnemonic.HasOpcode (Word.opcode w)) ∧
    (∀ v, r.unmatched = .funct3 v ↔
      v = Word.funct3 w ∧ Mnemonic.HasOpcode (Word.opcode w) ∧
        ¬ Mnemonic.HasFunct3 (Word.opcode w) (Word.funct3 w)) ∧
    (Mnemonic.HasFunct3 (Word.opcode w) (Word.funct3 w) →
      ¬ Mnemonic.HasFunct7 (Word.opcode w) (Word.funct3 w) (Word.funct7 w) ∧
      (Word.opcode w = 0x33 ∧ r.unmatched = .funct7 (Word.funct7 w) ∨
        Word.opcode w = 0x13 ∧ r.unmatched = .shiftType (Word.funct7 w))) := by
  obtain ⟨-, hraw, hopcode⟩ := Parsed.resolve_eq_error_iff.1 h
  have hw : r.raw = w := hraw
  refine ⟨hw, ?_, by rw [Rejection.parsed, hw], ?_⟩
  · rw [Word.toNat_and_opcode]
    exact hopcode
  · have hfirst := isFirst_of_decode h
    generalize r.unmatched = u at hfirst ⊢
    cases hfirst with
    | opcode hnone =>
        refine ⟨by simp [hnone], by simp [hnone], fun h3 => ?_⟩
        exact absurd h3.hasOpcode hnone
    | funct3 hop hnone =>
        refine ⟨by simp [hop], fun v => ?_, fun h3 => absurd h3 hnone⟩
        simp [hop, hnone, eq_comm]
    | funct7 hop h3 hnone =>
        exact ⟨by simp [h3.hasOpcode], by simp [h3], fun _ => ⟨hnone, .inl ⟨hop, rfl⟩⟩⟩
    | shiftType hop h3 hnone =>
        exact ⟨by simp [h3.hasOpcode], by simp [h3], fun _ => ⟨hnone, .inr ⟨hop, rfl⟩⟩⟩

/-- The shift type of an arithmetic right shift, on a left shift. -/
theorem rejection_names_shift_type :
    let w : Word := 0x40001013
    decode w = .error ⟨w, 0x13, .shiftType 0x20⟩ ∧
      ¬ Mnemonic.HasFunct7 (Word.opcode w) (Word.funct3 w) (Word.funct7 w) := by
  intro w
  have h : decode w = .error ⟨w, 0x13, .shiftType 0x20⟩ := by decide
  obtain ⟨-, -, -, -, -, hthird⟩ := rejection_names_first_unmatched h
  exact ⟨h, (hthird (by decide)).1⟩

end RiscvListing
