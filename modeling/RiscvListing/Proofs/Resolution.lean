import RiscvListing.Proofs.Immediate
import RiscvListing.Proofs.Rejected

/-!
# Resolving fields that no word has

Fields may be built by hand: of another layout than the opcode's, and with values wider than the
bits of a word. Resolving them keeps what it promises for words, as far as the values allow.

* `RegisterIndices`: the registers of fields and of operands, by their part in the instruction.
* `Operands.ValueInRange`: the immediate, shift amount or offset is one that a word could hold, with
  no word about registers and upper immediates, which are copied as they are.
* `Operands.shape_of_ofFields?`, `Operands.indices_of_ofFields?`, `Operands.valueInRange_of_ofFields?`:
  what operands read from any fields have in common.
* `Fields.cutImmediates`: the fields with the immediates cut down to the bits of the layout, which
  makes no difference (`resolveFields_cutImmediates`).
* `Parsed.resolve_of_layout_ne`: fields of the wrong layout are rejected at the opcode.
* **Any parsed word** (`resolve_any_parsed`).
-/

namespace RiscvListing

/-! ## Registers and values -/

/-- The registers of an instruction by their part in it, where it has them. -/
structure RegisterIndices where
  /-- The destination. -/
  rd : Option Nat := none
  /-- The first source. -/
  rs1 : Option Nat := none
  /-- The second source. -/
  rs2 : Option Nat := none
  deriving DecidableEq, Repr

/-- The registers that a layout has fields for. -/
def Fields.indices : Fields → RegisterIndices
  | .r _ _ rd rs1 rs2 => { rd := some rd, rs1 := some rs1, rs2 := some rs2 }
  | .i _ rd rs1 _ => { rd := some rd, rs1 := some rs1 }
  | .s _ rs1 rs2 _ _ | .b _ rs1 rs2 _ _ => { rs1 := some rs1, rs2 := some rs2 }
  | .u rd _ | .j rd _ => { rd := some rd }

/-- The registers among operands. -/
def Operands.indices : Operands → RegisterIndices
  | .registers rd rs1 rs2 => { rd := some rd, rs1 := some rs1, rs2 := some rs2 }
  | .immediate rd rs1 _ | .shift rd rs1 _ | .load rd rs1 _ => { rd := some rd, rs1 := some rs1 }
  | .store rs1 rs2 _ | .branch rs1 rs2 _ => { rs1 := some rs1, rs2 := some rs2 }
  | .upper rd _ | .jump rd _ => { rd := some rd }
  | .bare => {}

/-- The value that is read from immediate bits is one that fits into them. -/
def Operands.ValueInRange : Operands → Prop
  | .immediate _ _ value | .load _ _ value | .store _ _ value => -2048 ≤ value ∧ value ≤ 2047
  | .shift _ _ shamt => shamt < 32
  | .branch _ _ offset => offset % 2 = 0 ∧ -4096 ≤ offset ∧ offset ≤ 4094
  | .jump _ offset => offset % 2 = 0 ∧ -2 ^ 20 ≤ offset ∧ offset ≤ 2 ^ 20 - 2
  | .registers .. | .upper .. | .bare => True

/-! ## Operands read from any fields -/

namespace Operands

variable {s : Shape} {fields : Fields} {ops : Operands}

theorem shape_of_ofFields? (h : ofFields? s fields = some ops) : ops.shape = s := by
  unfold ofFields? at h
  split at h <;> cases h <;> rfl

/-- Registers are copied, whatever their indices are. -/
theorem indices_of_ofFields? (h : ofFields? s fields = some ops) (hbare : ops ≠ .bare) :
    ops.indices = fields.indices := by
  unfold ofFields? at h
  split at h <;> cases h
  case h_9 => exact absurd rfl hbare
  all_goals rfl

/-- Values are in range, whatever the immediates are. -/
theorem valueInRange_of_ofFields? (h : ofFields? s fields = some ops) : ops.ValueInRange := by
  unfold ofFields? at h
  split at h <;> cases h
  case h_2 imm | h_4 imm =>
    obtain ⟨hlo, hhi, -⟩ := immediateValue_spec imm
    exact ⟨hlo, by omega⟩
  case h_3 imm => exact bitGroup_lt imm 0 5
  case h_5 imm5 imm7 =>
    obtain ⟨hlo, hhi, -⟩ := storeOffset_spec imm5 imm7
    exact ⟨hlo, by omega⟩
  case h_6 imm5 imm7 =>
    obtain ⟨hlo, hhi, -⟩ := branchOffset_spec imm5 imm7
    have heven := branchOffset_even imm5 imm7
    exact ⟨heven, hlo, by omega⟩
  case h_8 imm =>
    obtain ⟨hlo, hhi, -⟩ := jumpOffset_spec imm
    have heven := jumpOffset_even imm
    exact ⟨heven, hlo, by omega⟩
  all_goals trivial

end Operands

/-! ## What has no influence -/

/-- The fields with their immediates cut down to the bits that the layout has for them. The upper
immediate of the U layout is taken as it is. -/
def Fields.cutImmediates : Fields → Fields
  | .i funct3 rd rs1 imm => .i funct3 rd rs1 (imm % 2 ^ 12)
  | .s funct3 rs1 rs2 imm5 imm7 => .s funct3 rs1 rs2 (imm5 % 2 ^ 5) (imm7 % 2 ^ 7)
  | .b funct3 rs1 rs2 imm5 imm7 => .b funct3 rs1 rs2 (imm5 % 2 ^ 5) (imm7 % 2 ^ 7)
  | .j rd imm => .j rd (imm % 2 ^ 20)
  | fields => fields

theorem resolveImmediate_mod (funct3 rd rs1 imm : Nat) :
    resolveImmediate funct3 rd rs1 (imm % 2 ^ 12) = resolveImmediate funct3 rd rs1 imm := by
  unfold resolveImmediate
  simp (disch := decide) only [bitGroup_mod_two_pow, immediateValue_mod]

/-- **Bits above the immediates have no influence**, whatever the opcode is. -/
theorem resolveFields_cutImmediates (opcode : Nat) (fields : Fields) :
    resolveFields opcode fields.cutImmediates = resolveFields opcode fields := by
  fun_cases resolveFields opcode fields with
  | case1 funct3 funct7 rd rs1 rs2 => rfl
  | case2 funct3 rd rs1 imm => exact resolveImmediate_mod funct3 rd rs1 imm
  | case3 funct3 rd rs1 imm =>
      show (Mnemonic.ofLoad funct3).map _ = _
      rw [immediateValue_mod]
  | case4 funct3 rs1 rs2 imm5 imm7 =>
      show (Mnemonic.ofStore funct3).map _ = _
      rw [storeOffset_mod]
  | case5 funct3 rs1 rs2 imm5 imm7 =>
      show (Mnemonic.ofBranch funct3).map _ = _
      rw [branchOffset_mod]
  | case6 rd imm => rfl
  | case7 rd imm =>
      show Except.ok _ = _
      rw [jumpOffset_mod]
  | case8 fields => cases fields <;> rfl
  | case9 =>
      -- cutting keeps the layout, so that it brings none of the other cases about
      unfold resolveFields
      split <;> cases fields <;> grind [Fields.cutImmediates]

/-- What came of resolving, with another word in place of the one that was kept. -/
def withRaw (raw : Word) : Except Rejection Instruction → Except Rejection Instruction
  | .ok i => .ok { i with raw := raw }
  | .error r => .error { r with raw := raw }

namespace Parsed

/-- The word itself is only kept. -/
theorem resolve_setRaw (p : Parsed) (raw : Word) :
    ({ p with raw := raw } : Parsed).resolve = withRaw raw p.resolve := by
  unfold resolve
  rcases resolveFields p.opcode p.fields with u | ⟨m, ops⟩ <;> rfl

/-! ## Layouts -/

/-- An environment call takes any fields. -/
theorem resolve_of_system {p : Parsed} (h : p.opcode = Opcode.system) :
    p.resolve = .ok ⟨p.raw, .ecall, .bare⟩ := by
  refine resolve_eq_ok_iff.2 ⟨resolveFields_eq_ok_iff.2 ⟨h.symm, ⟨nofun, nofun⟩, ?_⟩, rfl⟩
  cases p.fields <;> rfl

/-- **Fields of another layout than the opcode's match nothing**, environment calls apart. -/
theorem resolve_of_layout_ne {p : Parsed} (hlayout : p.fields.layout ≠ Layout.ofOpcode p.opcode)
    (hsys : p.opcode ≠ Opcode.system) : p.resolve = .error ⟨p.raw, p.opcode, .opcode⟩ := by
  refine resolve_eq_error_iff.2 ⟨?_, rfl, rfl⟩
  obtain ⟨raw, opcode, fields⟩ := p
  dsimp only at hlayout hsys ⊢
  unfold resolveFields
  split
  case h_8 => exact absurd rfl hsys
  case h_9 => rfl
  all_goals exact absurd rfl hlayout

end Parsed

/-! ## Any parsed word -/

/-- **Resolving any parsed word**, also one whose fields no word has. An instruction keeps the word,
has the opcode that was given, operands of its mnemonic's shape with the registers of the fields,
and a value that is in range. Environment calls take any fields; for any other opcode, fields of
another layout than its own are rejected at the opcode. Neither the word nor the bits above the
immediates have an influence on what is found. -/
theorem resolve_any_parsed (p : Parsed) :
    (∀ i, p.resolve = .ok i →
      i.raw = p.raw ∧ i.mnemonic.selectors.opcode = p.opcode ∧
        i.operands.shape = i.mnemonic.shape ∧
        (i.operands ≠ .bare → i.operands.indices = p.fields.indices) ∧
        i.operands.ValueInRange) ∧
    (p.opcode = Opcode.system → p.resolve = .ok ⟨p.raw, .ecall, .bare⟩) ∧
    (p.fields.layout ≠ Layout.ofOpcode p.opcode → p.opcode ≠ Opcode.system →
      p.resolve = .error ⟨p.raw, p.opcode, .opcode⟩) ∧
    (∀ raw, ({ p with raw := raw } : Parsed).resolve = withRaw raw p.resolve) ∧
    ∀ fields : Fields, fields.cutImmediates = p.fields.cutImmediates →
      ({ p with fields := fields } : Parsed).resolve = p.resolve := by
  refine ⟨fun i hi => ?_, Parsed.resolve_of_system, Parsed.resolve_of_layout_ne, p.resolve_setRaw,
    fun fields hcut => ?_⟩
  · obtain ⟨hfields, hraw⟩ := Parsed.resolve_eq_ok_iff.1 hi
    obtain ⟨hopcode, -, hops⟩ := resolveFields_eq_ok_iff.1 hfields
    exact ⟨hraw, hopcode, Operands.shape_of_ofFields? hops, Operands.indices_of_ofFields? hops,
      Operands.valueInRange_of_ofFields? hops⟩
  · unfold Parsed.resolve
    rw [← resolveFields_cutImmediates p.opcode p.fields, ← hcut, resolveFields_cutImmediates]

/-- A store with registers and immediates that no word has room for, and the same with the
immediates cut down; under the opcode of loads its fields match nothing. -/
theorem resolve_any_parsed_store :
    let wide : Parsed := ⟨0, Opcode.store, .s 2 200 99 0xFC 0xFF⟩
    let narrow : Fields := .s 2 200 99 0x1C 0x7F
    wide.resolve = .ok ⟨0, .sw, .store 200 99 (-4)⟩ ∧
      narrow.cutImmediates = wide.fields.cutImmediates ∧
      ({ wide with fields := narrow } : Parsed).resolve = wide.resolve ∧
      ({ wide with opcode := Opcode.load } : Parsed).resolve =
        .error ⟨0, Opcode.load, .opcode⟩ := by
  intro wide narrow
  have hwide : wide.resolve = .ok ⟨0, .sw, .store 200 99 (-4)⟩ := by decide
  have hcut : narrow.cutImmediates = wide.fields.cutImmediates := by decide
  obtain ⟨-, -, -, -, hnarrow⟩ := resolve_any_parsed wide
  obtain ⟨-, -, hlayout, -, -⟩ := resolve_any_parsed { wide with opcode := Opcode.load }
  exact ⟨hwide, hcut, hnarrow narrow hcut, hlayout (by decide) (by decide)⟩

end RiscvListing
