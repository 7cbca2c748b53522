import RiscvListing.HexWord
import RiscvListing.Text.Numeral
import Mathlib

/-!
# Numerals can be read back

* **Base ten** (`Numeral.natural_injective`, `Numeral.decimal_injective`): different numbers have
  different numerals, of any length and either sign.
* `Numeral.exists_digits_hexPadded`: a numeral in base sixteen is a list of digits whose value is
  the number; the zeros in front do not count.
* **Words** (`HexWord.parse?_hexPadded`): the eight digits of a word spell that word.
-/

namespace RiscvListing

/-! ## Base ten -/

namespace Numeral

@[simp] theorem toList_natural (n : Nat) : (natural n).toList = Nat.toDigits 10 n :=
  String.toList_ofList

theorem isDigit_of_mem_natural {n : Nat} {c : Char} (h : c ∈ (natural n).toList) : c.isDigit := by
  rw [toList_natural] at h
  exact Nat.isDigit_of_mem_toDigits (by decide) (by decide) h

/-- Different numbers have different numerals. -/
theorem natural_injective : Function.Injective natural := by
  intro m n h
  have hdigits : Nat.toDigits 10 m = Nat.toDigits 10 n := by
    rw [← toList_natural, ← toList_natural, h]
  have hvalue := congrArg (Nat.ofDigitChars 10 · 0) hdigits
  simpa only [Nat.ofDigitChars_ten_toDigits] using hvalue

/-- A numeral without a sign is no numeral with one. -/
theorem natural_ne_minus (m : Nat) (text : String) : natural m ≠ "-" ++ text := by
  intro h
  have hmem : '-' ∈ (natural m).toList := by
    rw [h, String.toList_append]
    exact List.mem_append_left _ (by decide)
  exact absurd (isDigit_of_mem_natural hmem) (by decide)

/-- Different integers have different numerals. -/
theorem decimal_injective : Function.Injective decimal := by
  intro a b h
  rcases a with m | m <;> rcases b with n | n
  · exact congrArg Int.ofNat (natural_injective h)
  · exact absurd h (natural_ne_minus m _)
  · exact absurd h.symm (natural_ne_minus n _)
  · have hdigits : natural (m + 1) = natural (n + 1) := by
      apply String.toList_injective
      have hlist := congrArg String.toList h
      simpa only [decimal, String.toList_append, List.append_cancel_left_eq] using hlist
    exact congrArg Int.negSucc (Nat.succ.inj (natural_injective hdigits))

/-! ## Base sixteen -/

/-- The digits of a number in base sixteen. -/
theorem exists_digits_toDigits (n : Nat) :
    ∃ ds : List Nat, (∀ d ∈ ds, d < 16) ∧ Nat.toDigits 16 n = ds.map Nat.digitChar ∧
      HexWord.value ds = n := by
  induction n using Nat.strongRecOn with
  | ind n ih =>
      rw [Nat.toDigits_eq_if (by decide)]
      split
      · rename_i hlt
        exact ⟨[n], by simpa using hlt, rfl, by simp [HexWord.value]⟩
      · rename_i hle
        obtain ⟨ds, hlt, htext, hvalue⟩ := ih (n / 16) (by omega)
        refine ⟨ds ++ [n % 16], ?_, ?_, ?_⟩
        · intro d hd
          rcases List.mem_append.mp hd with hd | hd
          · exact hlt d hd
          · rw [List.mem_singleton.mp hd]
            exact Nat.mod_lt _ (by decide)
        · rw [htext, List.map_append]
          rfl
        · unfold HexWord.value at hvalue ⊢
          rw [List.foldl_append, hvalue]
          exact Nat.div_add_mod n 16

/-- Zeros in front do not count. -/
theorem value_replicate_zero (k : Nat) (ds : List Nat) :
    HexWord.value (List.replicate k 0 ++ ds) = HexWord.value ds := by
  induction k with
  | zero => rfl
  | succ k ih => exact ih

/-- A numeral in base sixteen is a list of digits whose value is the number. -/
theorem exists_digits_hexPadded (width n : Nat) :
    ∃ ds : List Nat, (∀ d ∈ ds, d < 16) ∧
      (hexPadded width n).toList = ds.map Nat.digitChar ∧ HexWord.value ds = n := by
  obtain ⟨ds, hlt, htext, hvalue⟩ := exists_digits_toDigits n
  refine ⟨List.replicate (width - (Nat.toDigits 16 n).length) 0 ++ ds, ?_, ?_, ?_⟩
  · intro d hd
    rcases List.mem_append.mp hd with hd | hd
    · rw [List.eq_of_mem_replicate hd]
      decide
    · exact hlt d hd
  · rw [List.map_append, List.map_replicate, ← htext]
    exact String.toList_ofList
  · rw [value_replicate_zero, hvalue]

/-- A number below `16 ^ width` has exactly `width` digits. -/
theorem length_hexPadded {width n : Nat} (hw : 0 < width) (h : n < 16 ^ width) :
    (hexPadded width n).toList.length = width := by
  have hle := (Nat.length_toDigits_le_iff (by decide) hw).mpr h
  unfold hexPadded
  rw [String.toList_ofList, List.length_leftpad]
  omega

end Numeral

/-! ## Words -/

namespace HexWord

theorem digitValue?_digitChar {d : Nat} (h : d < 16) :
    digitValue? (Nat.digitChar d) = some d := by
  decide +revert

theorem mapM_digitValue? {ds : List Nat} (h : ∀ d ∈ ds, d < 16) :
    (ds.map Nat.digitChar).mapM digitValue? = some ds := by
  induction ds with
  | nil => rfl
  | cons d ds ih =>
      have hd := digitValue?_digitChar (h d List.mem_cons_self)
      have hds := ih fun e he => h e (List.mem_cons_of_mem d he)
      simp [hd, hds]

/-- A text without a mark is all body. -/
theorem body_eq_self {text : List Char} (h : ∀ c ∈ text, c ≠ 'x' ∧ c ≠ 'X') :
    body text = text := by
  unfold body
  split
  · exact absurd rfl (h 'x' (by simp)).1
  · exact absurd rfl (h 'X' (by simp)).2
  · rfl

/-- Digits stand for no mark and are no underscores. -/
theorem digitChar_ne {d : Nat} (h : d < 16) :
    Nat.digitChar d ≠ 'x' ∧ Nat.digitChar d ≠ 'X' ∧ Nat.digitChar d ≠ '_' := by
  decide +revert

/-- One to eight digits spell the word of their value. -/
theorem parse?_map_digitChar {ds : List Nat} (h : ∀ d ∈ ds, d < 16) (hpos : 1 ≤ ds.length)
    (hle : ds.length ≤ 8) :
    parse? (ds.map Nat.digitChar) = some (BitVec.ofNat 32 (value ds)) := by
  have hbody : body (ds.map Nat.digitChar) = ds.map Nat.digitChar := by
    refine body_eq_self fun c hc => ?_
    obtain ⟨d, hd, rfl⟩ := List.mem_map.mp hc
    exact ⟨(digitChar_ne (h d hd)).1, (digitChar_ne (h d hd)).2.1⟩
  have hfilter : (ds.map Nat.digitChar).filter (· ≠ '_') = ds.map Nat.digitChar := by
    refine List.filter_eq_self.mpr fun c hc => ?_
    obtain ⟨d, hd, rfl⟩ := List.mem_map.mp hc
    exact decide_eq_true (digitChar_ne (h d hd)).2.2
  unfold parse?
  rw [hbody, hfilter, mapM_digitValue? h]
  exact if_pos ⟨hpos, hle⟩

/-- **The eight digits of a word spell that word.** -/
theorem parse?_hexPadded (w : Word) :
    parse? (Numeral.hexPadded 8 w.toNat).toList = some w := by
  obtain ⟨ds, hlt, htext, hvalue⟩ := Numeral.exists_digits_hexPadded 8 w.toNat
  have hlen : ds.length = 8 := by
    rw [← List.length_map Nat.digitChar, ← htext]
    exact Numeral.length_hexPadded (by decide) w.isLt
  rw [htext, parse?_map_digitChar hlt (by omega) (by omega), hvalue,
    BitVec.ofNat_toNat, BitVec.setWidth_eq]

end HexWord

end RiscvListing
