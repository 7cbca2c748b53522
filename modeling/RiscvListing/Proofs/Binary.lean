import RiscvListing.Program
import RiscvListing.Proofs.BitGroup

/-!
# Little-endian words

* `Word.ofDigits_bytes`: the four bytes of a word are its digits in base 256, the least significant
  one first.
* `Word.ofBytes_bytes`, `Word.bytes_ofBytes`: the four bytes of a word make that word, and the word
  that was made of four bytes has these bytes.
* `Program.takeWords_littleEndian`: whole words are taken one after the other.
* `Program.littleEndian_takeWords`: the words taken from groups of four bytes have these bytes.
* **The bytes of words read back** (`Program.readBinary_littleEndian`).
* **Buffers and words correspond** (`read_binary_iff_littleEndian`): a buffer is read as the one
  list of words that it holds, or refused with its length.
-/

namespace RiscvListing

/-- The bytes of a word are its digits in base 256. -/
theorem Word.ofDigits_bytes (w : Word) :
    Nat.ofDigits 256 ((bytes w).map UInt8.toNat) = w.toNat := by
  have hw : w.toNat < 2 ^ 32 := w.isLt
  simp only [bytes, List.map_cons, List.map_nil, bitGroup_eq, UInt8.toNat_ofNat',
    Nat.ofDigits_cons, Nat.ofDigits_nil]
  omega

/-- The bytes of a word make the word again. -/
theorem Word.ofBytes_bytes (w : Word) :
    ofBytes (UInt8.ofNat (bitGroup w.toNat 0 8)) (UInt8.ofNat (bitGroup w.toNat 8 8))
      (UInt8.ofNat (bitGroup w.toNat 16 8)) (UInt8.ofNat (bitGroup w.toNat 24 8)) = w := by
  have hw : w.toNat < 2 ^ 32 := w.isLt
  apply BitVec.eq_of_toNat_eq
  unfold ofBytes
  simp only [bitGroup_eq, UInt8.toNat_ofNat', Nat.shiftLeft_eq, BitVec.toNat_ofNat]
  omega

/-- The word of four bytes has these bytes. -/
theorem Word.bytes_ofBytes (a b c d : UInt8) : bytes (ofBytes a b c d) = [a, b, c, d] := by
  have ha := a.toNat_lt
  have hb := b.toNat_lt
  have hc := c.toNat_lt
  have hd := d.toNat_lt
  simp only [bytes, ofBytes, List.map_cons, List.map_nil, bitGroup_eq, Nat.shiftLeft_eq,
    BitVec.toNat_ofNat, List.cons.injEq, ← UInt8.toNat_inj, UInt8.toNat_ofNat', and_true]
  omega

namespace Program

theorem length_littleEndian (words : List Word) :
    (littleEndian words).length = 4 * words.length := by
  induction words with
  | nil => rfl
  | cons w words ih =>
      have hbytes : (Word.bytes w).length = 4 := rfl
      unfold littleEndian at ih ⊢
      rw [List.flatMap_cons, List.length_append, ih, hbytes, List.length_cons]
      omega

/-- Words are taken one after the other. -/
theorem takeWords_littleEndian (found : Array Word) (words : List Word) :
    takeWords found (littleEndian words) = found ++ words := by
  induction words generalizing found with
  | nil => simp [littleEndian, takeWords]
  | cons w words ih =>
      have hstep : takeWords found (littleEndian (w :: words)) =
          takeWords (found.push w) (littleEndian words) := by
        show takeWords (found.push (Word.ofBytes _ _ _ _)) (littleEndian words) = _
        rw [Word.ofBytes_bytes]
      rw [hstep, ih]
      simp

/-- **The bytes of words read back as the words.** -/
theorem readBinary_littleEndian (words : List Word) :
    readBinary (littleEndian words) = .ok words := by
  have hwhole : (littleEndian words).length % 4 = 0 := by
    rw [length_littleEndian]
    omega
  unfold readBinary
  rw [if_pos hwhole, takeWords_littleEndian]
  simp

/-- The words that are taken from bytes in groups of four have these bytes. -/
theorem littleEndian_takeWords (found : Array Word) {bytes : List UInt8} (h : 4 ∣ bytes.length) :
    littleEndian (takeWords found bytes).toList = littleEndian found.toList ++ bytes := by
  fun_induction takeWords found bytes with
  | case1 found a b c d rest ih =>
      have hrest : 4 ∣ rest.length := (Nat.dvd_add_left (dvd_refl 4)).mp h
      have hpush : littleEndian (found.push (Word.ofBytes a b c d)).toList =
          littleEndian found.toList ++ [a, b, c, d] := by
        simp [littleEndian, Word.bytes_ofBytes]
      rw [ih hrest, hpush, List.append_assoc]
      rfl
  | case2 bytes found hnone =>
      -- fewer than four bytes are left, and none is the only such multiple of four
      match bytes, hnone, h with
      | [], _, _ => rw [List.append_nil]
      | a :: b :: c :: d :: rest, hnone, _ => exact absurd rfl (hnone a b c d rest)
      | [_], _, h | [_, _], _, h | [_, _, _], _, h =>
          simp only [List.length_cons, List.length_nil] at h
          omega

/-- A buffer of whole words is read as the words whose bytes it holds. -/
theorem exists_readBinary {bytes : List UInt8} (h : 4 ∣ bytes.length) :
    ∃ words, readBinary bytes = .ok words ∧ littleEndian words = bytes := by
  refine ⟨(takeWords #[] bytes).toList, if_pos (Nat.mod_eq_zero_of_dvd h), ?_⟩
  rw [littleEndian_takeWords #[] h]
  rfl

/-- A buffer is refused just if it does not consist of whole words. -/
theorem readBinary_eq_error_iff (bytes : List UInt8) (failure : Failure) :
    readBinary bytes = .error failure ↔
      ¬ 4 ∣ bytes.length ∧ failure = .truncatedInput bytes.length := by
  rw [Nat.dvd_iff_mod_eq_zero, readBinary]
  split_ifs with hwhole
  · simp [hwhole]
  · simp [hwhole, eq_comm]

/-- A buffer is read as words just if it holds their bytes. -/
theorem readBinary_eq_ok_iff (bytes : List UInt8) (words : List Word) :
    readBinary bytes = .ok words ↔ littleEndian words = bytes := by
  constructor
  · intro hok
    have hwhole : 4 ∣ bytes.length := by
      by_contra hnot
      have herror := (readBinary_eq_error_iff bytes _).mpr ⟨hnot, rfl⟩
      exact nomatch hok.symm.trans herror
    obtain ⟨others, hothers, hbytes⟩ := exists_readBinary hwhole
    rw [Except.ok.inj (hok.symm.trans hothers)]
    exact hbytes
  · rintro rfl
    exact readBinary_littleEndian words

end Program

/-- **Buffers and lists of words correspond.** A buffer whose length is a multiple of four is read
as the list of a quarter of that length whose bytes it holds, each word with its digits in base 256
from the least significant one on; and there is no other such list. Any other buffer is refused with
its whole length. -/
theorem read_binary_iff_littleEndian :
    (∀ w : Word, (Word.bytes w).length = 4 ∧
      Nat.ofDigits 256 ((Word.bytes w).map UInt8.toNat) = w.toNat) ∧
    (∀ bytes failure, Program.read bytes .binary = .error failure ↔
      ¬ 4 ∣ bytes.length ∧ failure = .truncatedInput bytes.length) ∧
    (∀ bytes : List UInt8, 4 ∣ bytes.length →
      ∃ words, Program.read bytes .binary = .ok words ∧ words.length = bytes.length / 4 ∧
        words.flatMap Word.bytes = bytes) ∧
    (∀ words : List Word, Program.read (words.flatMap Word.bytes) .binary = .ok words) ∧
    ∀ bytes words, Program.read bytes .binary = .ok words ↔ words.flatMap Word.bytes = bytes := by
  refine ⟨fun w => ⟨rfl, Word.ofDigits_bytes w⟩, Program.readBinary_eq_error_iff, ?_,
    Program.readBinary_littleEndian, Program.readBinary_eq_ok_iff⟩
  intro bytes hwhole
  obtain ⟨words, hok, hbytes⟩ := Program.exists_readBinary hwhole
  have hlength := Program.length_littleEndian words
  rw [hbytes] at hlength
  exact ⟨words, hok, by omega, hbytes⟩

/-- Eight bytes are two words, of which the second has its highest bit set; seven bytes are
refused. -/
theorem read_binary_iff_littleEndian_two_words :
    let bytes : List UInt8 := [0x33, 0x85, 0xA5, 0x00, 0x73, 0x00, 0x00, 0x80]
    4 ∣ bytes.length ∧ (∃ words, Program.read bytes .binary = .ok words ∧ words.length = 2) ∧
    Program.read bytes .binary = .ok [0x00A58533, 0x80000073] ∧
    Program.read bytes.dropLast .binary = .error (.truncatedInput 7) := by
  intro bytes
  obtain ⟨-, hrefused, hwhole, -, hread⟩ := read_binary_iff_littleEndian
  have hfour : 4 ∣ bytes.length := by decide
  obtain ⟨words, hok, hlength, -⟩ := hwhole bytes hfour
  have htwo : bytes.length / 4 = 2 := by decide
  exact ⟨hfour, ⟨words, hok, hlength.trans htwo⟩, (hread _ _).mpr (by decide),
    (hrefused _ _).mpr ⟨by decide, rfl⟩⟩

end RiscvListing
