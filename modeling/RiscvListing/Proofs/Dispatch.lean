import RiscvListing.Instruction.Resolve
import RiscvListing.Proofs.BitGroup

/-!
# The dispatch and the table of selectors

The decoder's nested dispatch and the table `Mnemonic.selectors` are written apart from each other.

* `Selectors.Agrees s fields`, `Selectors.Matches s w`: the fields, or the word, carry the values
  that the selectors fix. `Selectors.mask` has ones at the fixed bits, and `Matches` says that the
  word cut down to them is the base word (`matches_iff_and_mask`).
* `Operands.ofFields?`, `Operands.ofWord`: the operands of a shape, read from fields and from a
  word.
* **The dispatch is the table** (`resolveFields_eq_ok_iff`): an opcode and fields resolve to `m`
  exactly if they carry the selectors of `m`, and then the operands are those of its shape. It
  rests on one lemma for each dispatch below an opcode.
* **The same for words** (`decode_eq_ok_iff`), where the layout follows from the opcode.
-/

namespace RiscvListing

/-! ## Selectors on fields and on words -/

/-- The third selector, where the layout has a place for it: the top seven immediate bits stand in
for it in the I layout. -/
def Fields.funct7 : Fields → Option Nat
  | .r _ f .. => some f
  | .i _ _ _ imm => some (bitGroup imm 5 7)
  | .s .. | .b .. | .u .. | .j .. => none

namespace Selectors

/-- The fields carry the second and third selector, as far as these are fixed. -/
def Agrees (s : Selectors) (fields : Fields) : Prop :=
  (∀ f ∈ s.funct3, fields.funct3 = some f) ∧ ∀ f ∈ s.funct7, fields.funct7 = some f

/-- The word carries all selectors that are fixed. -/
def Matches (s : Selectors) (w : Word) : Prop :=
  Word.opcode w = s.opcode ∧ (∀ f ∈ s.funct3, Word.funct3 w = f) ∧ ∀ f ∈ s.funct7, Word.funct7 w = f

instance (s : Selectors) (w : Word) : Decidable (s.Matches w) :=
  inferInstanceAs (Decidable (_ ∧ _ ∧ _))

/-- Ones at the bits that the selectors fix. -/
def mask (s : Selectors) : Word :=
  span 0 7 ||| (if s.funct3.isSome then span 12 3 else 0) |||
    if s.funct7.isSome then span 25 7 else 0

end Selectors

/-- The operands of a shape, read from fields; there are none if the layout is not that of the
shape. -/
def Operands.ofFields? : Shape → Fields → Option Operands
  | .registers, .r _ _ rd rs1 rs2 => some (.registers rd rs1 rs2)
  | .immediate, .i _ rd rs1 imm => some (.immediate rd rs1 (immediateValue imm))
  | .shift, .i _ rd rs1 imm => some (.shift rd rs1 (bitGroup imm 0 5))
  | .load, .i _ rd rs1 imm => some (.load rd rs1 (immediateValue imm))
  | .store, .s _ rs1 rs2 imm5 imm7 => some (.store rs1 rs2 (storeOffset imm5 imm7))
  | .branch, .b _ rs1 rs2 imm5 imm7 => some (.branch rs1 rs2 (branchOffset imm5 imm7))
  | .upper, .u rd imm => some (.upper rd imm)
  | .jump, .j rd imm => some (.jump rd (jumpOffset imm))
  | .bare, _ => some .bare
  | _, _ => none

/-! ## Dispatch below one opcode -/

namespace Mnemonic

/-- The register-register dispatch finds the mnemonic with the given selectors. -/
theorem ofArithmetic_eq_ok_iff {funct3 funct7 : Nat} {m : Mnemonic} :
    ofArithmetic funct3 funct7 = .ok m ↔ m.selectors = ⟨Opcode.op, some funct3, some funct7⟩ := by
  constructor
  · intro h
    unfold ofArithmetic at h
    split at h
    case h_8 => cases h
    all_goals split at h <;> cases h <;> rfl
  · intro h
    cases m <;> cases h <;> rfl

/-- The same for loads, which fix no third selector. -/
theorem ofLoad_eq_ok_iff {funct3 : Nat} {m : Mnemonic} :
    ofLoad funct3 = .ok m ↔ m.selectors = ⟨Opcode.load, some funct3, none⟩ := by
  constructor
  · intro h
    unfold ofLoad at h
    split at h <;> cases h <;> rfl
  · intro h
    cases m <;> cases h <;> rfl

/-- The same for stores. -/
theorem ofStore_eq_ok_iff {funct3 : Nat} {m : Mnemonic} :
    ofStore funct3 = .ok m ↔ m.selectors = ⟨Opcode.store, some funct3, none⟩ := by
  constructor
  · intro h
    unfold ofStore at h
    split at h <;> cases h <;> rfl
  · intro h
    cases m <;> cases h <;> rfl

/-- The same for branches. -/
theorem ofBranch_eq_ok_iff {funct3 : Nat} {m : Mnemonic} :
    ofBranch funct3 = .ok m ↔ m.selectors = ⟨Opcode.branch, some funct3, none⟩ := by
  constructor
  · intro h
    unfold ofBranch at h
    split at h <;> cases h <;> rfl
  · intro h
    cases m <;> cases h <;> rfl

end Mnemonic

/-- The register-immediate dispatch. Only shifts look at the top seven immediate bits. -/
theorem resolveImmediate_eq_ok_iff {funct3 rd rs1 imm : Nat} {m : Mnemonic} {ops : Operands} :
    resolveImmediate funct3 rd rs1 imm = .ok (m, ops) ↔
      m.selectors.opcode = Opcode.opImm ∧ m.selectors.Agrees (.i funct3 rd rs1 imm) ∧
        Operands.ofFields? m.shape (.i funct3 rd rs1 imm) = some ops := by
  constructor
  · intro h
    unfold resolveImmediate at h
    dsimp only at h
    split at h
    case h_2 | h_5 =>
      split at h <;> cases h <;> rename_i hst
      all_goals
        refine ⟨rfl, ?_, rfl⟩
        simp [Selectors.Agrees, Fields.funct3, Fields.funct7, Mnemonic.selectors, hst]
    case h_8 => cases h
    all_goals
      cases h
      exact ⟨rfl, by simp [Selectors.Agrees, Fields.funct3, Mnemonic.selectors], rfl⟩
  · rintro ⟨hop, ⟨h3, h7⟩, hops⟩
    cases m
    case slli | srli | srai =>
      cases hops
      obtain rfl := Option.some.inj (h3 _ rfl)
      have hst := Option.some.inj (h7 _ rfl)
      simp [resolveImmediate, hst]
    case addi | slti | xori | ori | andi =>
      cases hops
      obtain rfl := Option.some.inj (h3 _ rfl)
      rfl
    all_goals cases hop

/-! ## Dispatch on the opcode -/

/-- A dispatch that only finds the mnemonic, paired with fixed operands. -/
theorem map_pair_eq_ok_iff {found : Except Unmatched Mnemonic} {m : Mnemonic}
    {given ops : Operands} :
    found.map (fun m => (m, given)) = .ok (m, ops) ↔ found = .ok m ∧ given = ops := by
  cases found <;> simp [Except.map]

/-- A mnemonic that was found by the selectors of some fields, with the operands of its shape. -/
theorem resolved_of_selectors {m : Mnemonic} {opcode funct3 : Nat} {funct7 : Option Nat}
    {fields : Fields} {ops : Operands} (hs : m.selectors = ⟨opcode, some funct3, funct7⟩)
    (h3 : fields.funct3 = some funct3) (h7 : ∀ f ∈ funct7, fields.funct7 = some f)
    (hops : Operands.ofFields? m.shape fields = some ops) :
    m.selectors.opcode = opcode ∧ m.selectors.Agrees fields ∧
      Operands.ofFields? m.shape fields = some ops := by
  rw [hs]
  refine ⟨rfl, ⟨fun f hf => ?_, h7⟩, hops⟩
  rw [h3]
  exact hf

/-- **The dispatch is the table**: an opcode and fields resolve to a mnemonic exactly if they carry
its selectors and have the layout of its shape, and the operands are those of the shape. -/
theorem resolveFields_eq_ok_iff {opcode : Nat} {fields : Fields} {m : Mnemonic} {ops : Operands} :
    resolveFields opcode fields = .ok (m, ops) ↔
      m.selectors.opcode = opcode ∧ m.selectors.Agrees fields ∧
        Operands.ofFields? m.shape fields = some ops := by
  constructor
  · intro h
    unfold resolveFields at h
    split at h
    case h_1 =>
      obtain ⟨hm, rfl⟩ := map_pair_eq_ok_iff.1 h
      have hs := Mnemonic.ofArithmetic_eq_ok_iff.1 hm
      refine resolved_of_selectors hs rfl (fun f hf => hf) ?_
      cases m <;> cases hs <;> rfl
    case h_2 => exact resolveImmediate_eq_ok_iff.1 h
    case h_3 =>
      obtain ⟨hm, rfl⟩ := map_pair_eq_ok_iff.1 h
      have hs := Mnemonic.ofLoad_eq_ok_iff.1 hm
      refine resolved_of_selectors hs rfl nofun ?_
      cases m <;> cases hs <;> rfl
    case h_4 =>
      obtain ⟨hm, rfl⟩ := map_pair_eq_ok_iff.1 h
      have hs := Mnemonic.ofStore_eq_ok_iff.1 hm
      refine resolved_of_selectors hs rfl nofun ?_
      cases m <;> cases hs <;> rfl
    case h_5 =>
      obtain ⟨hm, rfl⟩ := map_pair_eq_ok_iff.1 h
      have hs := Mnemonic.ofBranch_eq_ok_iff.1 hm
      refine resolved_of_selectors hs rfl nofun ?_
      cases m <;> cases hs <;> rfl
    case h_9 => cases h
    all_goals
      cases h
      exact ⟨rfl, by simp [Selectors.Agrees, Mnemonic.selectors], rfl⟩
  · rintro ⟨rfl, ⟨h3, h7⟩, hops⟩
    -- the operands rule out every layout but the one of the mnemonic's shape
    cases m
    case addi | slli | slti | xori | srli | srai | ori | andi =>
      cases fields <;> cases hops
      exact resolveImmediate_eq_ok_iff.2 ⟨rfl, ⟨h3, h7⟩, rfl⟩
    case lb | lh | lw | sb | sh | sw | beq | bne =>
      cases fields <;> cases hops
      obtain rfl := Option.some.inj (h3 _ rfl)
      rfl
    case lui | jal | ecall => cases fields <;> cases hops <;> rfl
    all_goals
      cases fields <;> cases hops
      obtain rfl := Option.some.inj (h3 _ rfl)
      obtain rfl := Option.some.inj (h7 _ rfl)
      rfl

/-- Resolving keeps the word and takes mnemonic and operands from the dispatch. -/
theorem Parsed.resolve_eq_ok_iff {p : Parsed} {i : Instruction} :
    p.resolve = .ok i ↔
      resolveFields p.opcode p.fields = .ok (i.mnemonic, i.operands) ∧ i.raw = p.raw := by
  obtain ⟨raw, m, ops⟩ := i
  unfold Parsed.resolve
  cases resolveFields p.opcode p.fields with
  | error u => simp
  | ok found =>
      obtain ⟨m', ops'⟩ := found
      simp only [Except.ok.injEq, Instruction.mk.injEq, Prod.mk.injEq]
      constructor
      · rintro ⟨rfl, rfl, rfl⟩
        exact ⟨⟨rfl, rfl⟩, rfl⟩
      · rintro ⟨⟨rfl, rfl⟩, rfl⟩
        exact ⟨rfl, rfl, rfl⟩

/-! ## Words -/

/-- The operands of a shape, read from a word. -/
def Operands.ofWord (w : Word) : Shape → Operands
  | .registers => .registers (Word.rd w) (Word.rs1 w) (Word.rs2 w)
  | .immediate => .immediate (Word.rd w) (Word.rs1 w) (immediateValue (Word.immediate w))
  | .shift => .shift (Word.rd w) (Word.rs1 w) (Word.rs2 w)
  | .load => .load (Word.rd w) (Word.rs1 w) (immediateValue (Word.immediate w))
  | .store => .store (Word.rs1 w) (Word.rs2 w) (storeOffset (Word.rd w) (Word.funct7 w))
  | .branch => .branch (Word.rs1 w) (Word.rs2 w) (branchOffset (Word.rd w) (Word.funct7 w))
  | .upper => .upper (Word.rd w) (Word.upper w)
  | .jump => .jump (Word.rd w) (jumpOffset (Word.upper w))
  | .bare => .bare

/-- The shift amount is the group of the second source register. -/
theorem bitGroup_immediate_low (w : Word) : bitGroup (Word.immediate w) 0 5 = Word.rs2 w :=
  bitGroup_bitGroup w.toNat 20 12 0 5 (by decide)

/-- The shift type is the group of the third selector. -/
theorem bitGroup_immediate_high (w : Word) : bitGroup (Word.immediate w) 5 7 = Word.funct7 w :=
  bitGroup_bitGroup w.toNat 20 12 5 7 (by decide)

/-- The layout of a mnemonic's opcode is the one that its operands are read from. -/
theorem Operands.ofFields?_ofWord (w : Word) (m : Mnemonic) :
    Operands.ofFields? m.shape (Fields.ofWord w (Layout.ofOpcode m.selectors.opcode)) =
      some (Operands.ofWord w m.shape) := by
  cases m
  case slli | srli | srai =>
    show some (Operands.shift _ _ (bitGroup (Word.immediate w) 0 5)) = _
    rw [bitGroup_immediate_low]
    rfl
  all_goals rfl

/-- The layout of a mnemonic's opcode has a place for the second selector, if that is fixed. -/
theorem Fields.funct3_ofWord (w : Word) {m : Mnemonic} (h : m.selectors.funct3.isSome) :
    (Fields.ofWord w (Layout.ofOpcode m.selectors.opcode)).funct3 = some (Word.funct3 w) := by
  cases m
  case lui | jal | ecall => cases h
  all_goals rfl

/-- The same for the third selector. -/
theorem Fields.funct7_ofWord (w : Word) {m : Mnemonic} (h : m.selectors.funct7.isSome) :
    (Fields.ofWord w (Layout.ofOpcode m.selectors.opcode)).funct7 = some (Word.funct7 w) := by
  cases m
  case slli | srli | srai => exact congrArg some (bitGroup_immediate_high w)
  case add | sub | sll | slt | xor | srl | sra | or | and | mul | mulh | div | rem => rfl
  all_goals cases h

/-- A word carries the selectors of a mnemonic exactly if its opcode and its fields do. -/
theorem Selectors.matches_iff_agrees (w : Word) (m : Mnemonic) :
    m.selectors.Matches w ↔
      m.selectors.opcode = Word.opcode w ∧
        m.selectors.Agrees (Fields.ofWord w (Layout.ofOpcode m.selectors.opcode)) := by
  unfold Selectors.Matches Selectors.Agrees
  refine and_congr eq_comm (and_congr ?_ ?_)
  · refine forall₂_congr fun f hf => ?_
    rw [Fields.funct3_ofWord w (Option.isSome_of_mem hf), Option.some.injEq]
  · refine forall₂_congr fun f hf => ?_
    rw [Fields.funct7_ofWord w (Option.isSome_of_mem hf), Option.some.injEq]

/-- **A word decodes to a mnemonic exactly if it carries its selectors**, and then to that word,
that mnemonic and the operands of its shape. -/
theorem decode_eq_ok_iff {w : Word} {i : Instruction} :
    decode w = .ok i ↔
      i.mnemonic.selectors.Matches w ∧ i.raw = w ∧
        i.operands = Operands.ofWord w i.mnemonic.shape := by
  unfold decode
  rw [Parsed.resolve_eq_ok_iff, resolveFields_eq_ok_iff, Selectors.matches_iff_agrees]
  simp only [Parsed.ofWord]
  constructor
  · rintro ⟨⟨hop, hag, hops⟩, hraw⟩
    rw [← hop, Operands.ofFields?_ofWord] at hops
    rw [← hop] at hag
    exact ⟨⟨hop, hag⟩, hraw, (Option.some.inj hops).symm⟩
  · rintro ⟨⟨hop, hag⟩, hraw, hops⟩
    rw [← hop, Operands.ofFields?_ofWord, hops]
    exact ⟨⟨rfl, hag, rfl⟩, hraw⟩

/-! ## The fixed bits as a mask -/

/-- Three values placed where the selectors stand can be read back. -/
theorem place_selectors_inj {a b c a' b' c' : Nat} (ha : a < 2 ^ 7) (hb : b < 2 ^ 3)
    (hc : c < 2 ^ 7) (ha' : a' < 2 ^ 7) (hb' : b' < 2 ^ 3) (hc' : c' < 2 ^ 7) :
    place a 0 ||| place b 12 ||| place c 25 = place a' 0 ||| place b' 12 ||| place c' 25 ↔
      a = a' ∧ b = b' ∧ c = c' := by
  constructor
  · intro h
    have h₁ := congrArg (fun w : Word => bitGroup w.toNat 0 7) h
    have h₂ := congrArg (fun w : Word => bitGroup w.toNat 12 3) h
    have h₃ := congrArg (fun w : Word => bitGroup w.toNat 25 7) h
    simp (disch := omega) at h₁ h₂ h₃
    exact ⟨h₁, h₂, h₃⟩
  · rintro ⟨rfl, rfl, rfl⟩
    rfl

namespace Selectors

/-- Every selector fits into its group of the word. -/
def InRange (s : Selectors) : Prop :=
  s.opcode < 2 ^ 7 ∧ s.funct3.getD 0 < 2 ^ 3 ∧ s.funct7.getD 0 < 2 ^ 7

/-- The selectors of the table fit. -/
theorem inRange_selectors (m : Mnemonic) : m.selectors.InRange := by
  unfold InRange
  cases m <;> decide

/-- The base word as three placed values. -/
theorem baseWord_eq_place (s : Selectors) :
    s.baseWord =
      place s.opcode 0 ||| place (s.funct3.getD 0) 12 ||| place (s.funct7.getD 0) 25 := by
  unfold baseWord place
  rw [BitVec.shiftLeft_zero]

/-- The fixed bits of a word as three placed values. -/
theorem and_mask_eq_place (s : Selectors) (w : Word) :
    w &&& s.mask =
      place (Word.opcode w) 0 ||| place (if s.funct3.isSome then Word.funct3 w else 0) 12 |||
        place (if s.funct7.isSome then Word.funct7 w else 0) 25 := by
  unfold mask Word.opcode Word.funct3 Word.funct7
  rw [BitVec.and_or_distrib_left, BitVec.and_or_distrib_left, ← place_bitGroup]
  cases s.funct3 <;> cases s.funct7 <;> simp [place_bitGroup]

/-- **Matching is a comparison under the mask**: a word carries selectors that are in range exactly
if it is their base word once all bits are cleared that they do not fix. -/
theorem matches_iff_and_mask {s : Selectors} (hs : s.InRange) (w : Word) :
    s.Matches w ↔ w &&& s.mask = s.baseWord := by
  obtain ⟨hop, h3, h7⟩ := hs
  have hw3 : (if s.funct3.isSome then Word.funct3 w else 0) < 2 ^ 3 := by
    split
    · exact Word.funct3_lt w
    · decide
  have hw7 : (if s.funct7.isSome then Word.funct7 w else 0) < 2 ^ 7 := by
    split
    · exact Word.funct7_lt w
    · decide
  rw [and_mask_eq_place, baseWord_eq_place,
    place_selectors_inj (Word.opcode_lt w) hw3 hw7 hop h3 h7]
  unfold Matches
  cases s.funct3 <;> cases s.funct7 <;> simp

end Selectors

/-! ## Which words decode -/

/-- A word decodes to an instruction with the given mnemonic. -/
def DecodesTo (w : Word) (m : Mnemonic) : Prop := ∃ i, decode w = .ok i ∧ i.mnemonic = m

/-- Decoding to a mnemonic is carrying its selectors. -/
theorem decodesTo_iff_matches {w : Word} {m : Mnemonic} :
    DecodesTo w m ↔ m.selectors.Matches w := by
  constructor
  · rintro ⟨i, hi, rfl⟩
    exact (decode_eq_ok_iff.1 hi).1
  · intro h
    exact ⟨⟨w, m, Operands.ofWord w m.shape⟩, decode_eq_ok_iff.2 ⟨h, rfl, rfl⟩, rfl⟩

/-- A word decodes to one mnemonic at most. -/
theorem DecodesTo.unique {w : Word} {m m' : Mnemonic} (h : DecodesTo w m) (h' : DecodesTo w m') :
    m = m' := by
  obtain ⟨i, hi, rfl⟩ := h
  obtain ⟨i', hi', rfl⟩ := h'
  rw [Except.ok.inj (hi.symm.trans hi')]

/-- A word is rejected exactly if it decodes to no mnemonic. -/
theorem decode_eq_error_iff {w : Word} :
    (∃ r, decode w = .error r) ↔ ∀ m, ¬ DecodesTo w m := by
  cases hd : decode w with
  | error r => simp [DecodesTo, hd]
  | ok i => simp [DecodesTo, hd]

/-- The base word of a mnemonic carries its selectors. -/
theorem matches_baseWord (m : Mnemonic) : m.selectors.Matches m.selectors.baseWord := by
  cases m <;> decide

/-- **The dispatch and the table of selectors agree.** A word decodes to a mnemonic exactly if it
has the selectors of the mnemonic at their bits, equivalently if it equals the base word under the
mask of those bits. So no word matches two mnemonics of the table, the rejected words are those that
match none, and the base word is the smallest word that decodes to its mnemonic. -/
theorem decode_agrees_with_selectors (w : Word) (m : Mnemonic) :
    (DecodesTo w m ↔ m.selectors.Matches w) ∧
      (m.selectors.Matches w ↔ w &&& m.selectors.mask = m.selectors.baseWord) ∧
      (∀ m₁ ∈ Mnemonic.all, ∀ m₂ ∈ Mnemonic.all,
        m₁.selectors.Matches w → m₂.selectors.Matches w → m₁ = m₂) ∧
      ((∃ r, decode w = .error r) ↔ ∀ m' ∈ Mnemonic.all, ¬ m'.selectors.Matches w) ∧
      DecodesTo m.selectors.baseWord m ∧
        ∀ v, DecodesTo v m → m.selectors.baseWord.toNat ≤ v.toNat := by
  refine ⟨decodesTo_iff_matches, Selectors.matches_iff_and_mask (Selectors.inRange_selectors m) w,
    ?_, ?_, decodesTo_iff_matches.2 (matches_baseWord m), ?_⟩
  · intro m₁ _ m₂ _ h₁ h₂
    exact (decodesTo_iff_matches.2 h₁).unique (decodesTo_iff_matches.2 h₂)
  · rw [decode_eq_error_iff]
    constructor
    · intro h m' _ hm'
      exact h m' (decodesTo_iff_matches.2 hm')
    · intro h m' hm'
      exact h m' (Mnemonic.mem_all m') (decodesTo_iff_matches.1 hm')
  · intro v hv
    have hmask := (Selectors.matches_iff_and_mask (Selectors.inRange_selectors m) v).1
      (decodesTo_iff_matches.1 hv)
    rw [← hmask, BitVec.toNat_and]
    exact Nat.and_le_left

/-- An arithmetic shift by an immediate: the third selector that it is found by is part of the
immediate. -/
theorem decode_agrees_with_selectors_srai :
    let w : Word := 0x4050D093
    Mnemonic.srai.selectors.Matches w ∧ DecodesTo w .srai ∧
      w &&& Mnemonic.srai.selectors.mask = Mnemonic.srai.selectors.baseWord ∧
      ∀ m ∈ Mnemonic.all, m.selectors.Matches w → m = .srai := by
  intro w
  have hmatch : Mnemonic.srai.selectors.Matches w := by decide
  obtain ⟨hdec, hmask, hunique, -⟩ := decode_agrees_with_selectors w .srai
  exact ⟨hmatch, hdec.2 hmatch, hmask.1 hmatch,
    fun m hm h => hunique m hm .srai (Mnemonic.mem_all _) h hmatch⟩

end RiscvListing
