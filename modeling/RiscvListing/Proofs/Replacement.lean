import RiscvListing.Proofs.Utf8

/-!
# Bytes that are no text

Reading never fails, but it does not hide either that something was wrong.

* `Utf8.utf8EncodeChar_two`, `Utf8.utf8EncodeChar_three`, `Utf8.utf8EncodeChar_four`: the bytes of a
  character, from the parts of its code point that they carry.
* `Utf8.Sequence.Follows`: the bytes that a pending character has taken are the first ones of every
  character that it may still become.
* `Utf8.Decoder.Lossless`: unless a replacement has been read, the bytes read are those of the text
  and of what is pending. One byte more keeps this so (`Utf8.Decoder.Lossless.feed`), and so do any
  number (`Utf8.Decoder.Lossless.foldl`).
* **Bytes that are no text are not passed over** (`Utf8.replacement_mem_decode`).
-/

namespace RiscvListing.Utf8

/-! ## The bytes of a character -/

/-- Whether a byte may stand inside a character. -/
def IsInner (b : UInt8) : Prop := 0x80 ≤ b.toNat ∧ b.toNat ≤ 0xBF

/-- A number that is a code point is that of its character. -/
theorem val_ofNat {v : Nat} (h : v < 0xD800 ∨ 0xDFFF < v ∧ v < 0x110000) :
    (Char.ofNat v).val.toNat = v := by
  have hvalid : v.isValidChar := h
  exact (Char.toNat_ofNat v).trans (if_pos hvalid)

theorem utf8EncodeChar_ascii {b : UInt8} (hb : b.toNat < 0x80) :
    String.utf8EncodeChar (Char.ofNat b.toNat) = [b] := by
  unfold String.utf8EncodeChar
  rw [val_ofNat (by omega)]
  dsimp only
  rw [if_pos (by omega), UInt8.ofNat_toNat]

theorem utf8EncodeChar_two {b x : UInt8} (hb : 0xC2 ≤ b.toNat ∧ b.toNat ≤ 0xDF) (hx : IsInner x) :
    String.utf8EncodeChar (Char.ofNat ((b.toNat - 0xC0) * 64 + (x.toNat - 0x80))) = [b, x] := by
  unfold IsInner at hx
  unfold String.utf8EncodeChar
  rw [val_ofNat (by omega)]
  dsimp only
  rw [if_neg (by omega), if_pos (by omega)]
  simp only [List.cons.injEq, and_true, ← UInt8.toNat_inj, UInt8.toNat_ofNat']
  omega

theorem utf8EncodeChar_three {b x y : UInt8} (hb : 0xE0 ≤ b.toNat ∧ b.toNat ≤ 0xEF) (hx : IsInner x)
    (hy : IsInner y) (hshort : b.toNat = 0xE0 → 0xA0 ≤ x.toNat)
    (hsurrogate : b.toNat = 0xED → x.toNat ≤ 0x9F) :
    String.utf8EncodeChar
      (Char.ofNat (((b.toNat - 0xE0) * 64 + (x.toNat - 0x80)) * 64 + (y.toNat - 0x80))) =
      [b, x, y] := by
  unfold IsInner at hx hy
  unfold String.utf8EncodeChar
  rw [val_ofNat (by omega)]
  dsimp only
  rw [if_neg (by omega), if_neg (by omega), if_pos (by omega)]
  simp only [List.cons.injEq, and_true, ← UInt8.toNat_inj, UInt8.toNat_ofNat']
  omega

theorem utf8EncodeChar_four {b x y z : UInt8} (hb : 0xF0 ≤ b.toNat ∧ b.toNat ≤ 0xF4)
    (hx : IsInner x) (hy : IsInner y) (hz : IsInner z) (hshort : b.toNat = 0xF0 → 0x90 ≤ x.toNat)
    (hlimit : b.toNat = 0xF4 → x.toNat ≤ 0x8F) :
    String.utf8EncodeChar
      (Char.ofNat ((((b.toNat - 0xF0) * 64 + (x.toNat - 0x80)) * 64 + (y.toNat - 0x80)) * 64 +
        (z.toNat - 0x80))) = [b, x, y, z] := by
  unfold IsInner at hx hy hz
  unfold String.utf8EncodeChar
  rw [val_ofNat (by omega)]
  dsimp only
  rw [if_neg (by omega), if_neg (by omega), if_neg (by omega)]
  simp only [List.cons.injEq, and_true, ← UInt8.toNat_inj, UInt8.toNat_ofNat']
  omega

/-! ## Pending characters -/

namespace Sequence

/-- How a first byte bounds the second one: no shorter character is spelled again, no surrogate and
nothing above the code points. -/
theorem start?_cases {b : UInt8} {s : Sequence} (h : start? b = some s) :
    0x80 ≤ s.low.toNat ∧ s.high.toNat ≤ 0xBF ∧
      ((0xC2 ≤ b.toNat ∧ b.toNat ≤ 0xDF ∧ s.later = 0 ∧ s.bits = b.toNat - 0xC0) ∨
        (0xE0 ≤ b.toNat ∧ b.toNat ≤ 0xEF ∧ s.later = 1 ∧ s.bits = b.toNat - 0xE0 ∧
          (b.toNat = 0xE0 → 0xA0 ≤ s.low.toNat) ∧ (b.toNat = 0xED → s.high.toNat ≤ 0x9F)) ∨
        (0xF0 ≤ b.toNat ∧ b.toNat ≤ 0xF4 ∧ s.later = 2 ∧ s.bits = b.toNat - 0xF0 ∧
          (b.toNat = 0xF0 → 0x90 ≤ s.low.toNat) ∧ (b.toNat = 0xF4 → s.high.toNat ≤ 0x8F))) := by
  unfold start? at h
  simp only [UInt8.le_iff_toNat_le, ← UInt8.toNat_inj, UInt8.reduceToNat] at h
  split_ifs at h
  all_goals
    obtain rfl := Option.some.inj h
    simp only [UInt8.reduceToNat, true_and, and_true]
    omega

/-- The number that more bytes of a character make of its bits. -/
def gather (bits : Nat) (bytes : List UInt8) : Nat :=
  bytes.foldl (fun n b => n * 64 + (b.toNat - 0x80)) bits

theorem gather_cons (bits : Nat) (b : UInt8) (rest : List UInt8) :
    gather bits (b :: rest) = gather (bits * 64 + (b.toNat - 0x80)) rest := by
  rw [gather, List.foldl_cons, gather]

/-- A sequence follows the bytes `lead` if every way to complete it reads as the character that is
written as these bytes and the ones that complete it. -/
def Follows (s : Sequence) (lead : List UInt8) : Prop :=
  ∀ b rest, s.low.toNat ≤ b.toNat → b.toNat ≤ s.high.toNat → rest.length = s.later →
    (∀ r ∈ rest, IsInner r) →
    String.utf8EncodeChar (Char.ofNat (gather s.bits (b :: rest))) = lead ++ b :: rest

/-- A first byte is followed by the sequence that it starts. -/
theorem follows_of_start? {b : UInt8} {s : Sequence} (h : start? b = some s) : s.Follows [b] := by
  intro x rest hlow hhigh hlength hrest
  obtain ⟨hlo, hhi, hcases⟩ := start?_cases h
  have hx : IsInner x := ⟨hlo.trans hlow, hhigh.trans hhi⟩
  rcases hcases with ⟨hb, hb', hlater, hbits⟩ | ⟨hb, hb', hlater, hbits, hshort, hsurrogate⟩ |
    ⟨hb, hb', hlater, hbits, hshort, hlimit⟩
  · obtain rfl := List.length_eq_zero_iff.mp (hlength.trans hlater)
    rw [hbits]
    exact utf8EncodeChar_two ⟨hb, hb'⟩ hx
  · obtain ⟨y, rfl⟩ := List.length_eq_one_iff.mp (hlength.trans hlater)
    rw [hbits]
    exact utf8EncodeChar_three ⟨hb, hb'⟩ hx (hrest y (by simp)) (fun h0 => (hshort h0).trans hlow)
      fun hd => hhigh.trans (hsurrogate hd)
  · obtain ⟨y, z, rfl⟩ := List.length_eq_two.mp (hlength.trans hlater)
    rw [hbits]
    exact utf8EncodeChar_four ⟨hb, hb'⟩ hx (hrest y (by simp)) (hrest z (by simp))
      (fun h0 => (hshort h0).trans hlow) fun h4 => hhigh.trans (hlimit h4)

/-- The last byte completes the character. -/
theorem Follows.last {s : Sequence} {lead : List UInt8} (h : s.Follows lead) {b : UInt8}
    (hlow : s.low ≤ b) (hhigh : b ≤ s.high) (hlater : s.later = 0) :
    String.utf8EncodeChar (Char.ofNat (s.bits * 64 + (b.toNat - 0x80))) = lead ++ [b] :=
  h b [] (UInt8.le_iff_toNat_le.mp hlow) (UInt8.le_iff_toNat_le.mp hhigh) hlater.symm nofun

/-- After a byte before the last one, what is pending follows one byte more. -/
theorem Follows.next {s : Sequence} {lead : List UInt8} (h : s.Follows lead) {b : UInt8}
    (hlow : s.low ≤ b) (hhigh : b ≤ s.high) {later : Nat} (hlater : s.later = later + 1) :
    Follows { later := later, low := 0x80, high := 0xBF, bits := s.bits * 64 + (b.toNat - 0x80) }
      (lead ++ [b]) := by
  intro x rest hx hx' hlength hrest
  have hinner : ∀ r ∈ x :: rest, IsInner r := List.forall_mem_cons.mpr ⟨⟨hx, hx'⟩, hrest⟩
  have hcount : (x :: rest).length = s.later := by
    rw [hlater, List.length_cons, hlength]
  have hchar := h b (x :: rest) (UInt8.le_iff_toNat_le.mp hlow) (UInt8.le_iff_toNat_le.mp hhigh)
    hcount hinner
  rw [gather_cons] at hchar
  rw [hchar, List.append_assoc]
  rfl

end Sequence

/-! ## Reading byte by byte -/

namespace Decoder

/-- The decoder after some bytes: a replacement has been read, or the bytes are those of the text
and of the character that is pending. -/
def Lossless (bytes : List UInt8) (d : Decoder) : Prop :=
  replacement ∈ d.text ∨ ∃ lead, bytes = encode d.text.toList ++ lead ∧
    match d.pending with
    | none => lead = []
    | some s => s.Follows lead

theorem mem_text_first {text : Array Char} {c : Char} (h : c ∈ text) (b : UInt8) :
    c ∈ (first text b).text := by
  have hfirst := first_append text #[] b
  rw [Array.append_empty] at hfirst
  rw [hfirst]
  exact Array.mem_append_left _ h

/-- What has been read stays read. -/
theorem mem_text_feed {d : Decoder} {c : Char} (h : c ∈ d.text) (b : UInt8) :
    c ∈ (d.feed b).text := by
  have hafter : (d.feed b).text = d.text ++ (feed ⟨#[], d.pending⟩ b).text := by
    have hfeed := feed_after d.text ⟨#[], d.pending⟩ b
    simp only [after, Array.append_empty] at hfeed
    rw [hfeed]
  rw [hafter]
  exact Array.mem_append_left _ h

/-- A byte between two characters. -/
theorem lossless_first {bytes : List UInt8} {text : Array Char} (h : bytes = encode text.toList)
    (b : UInt8) : Lossless (bytes ++ [b]) (first text b) := by
  unfold first
  split
  · rename_i hascii
    have hb : b.toNat < 0x80 := UInt8.lt_iff_toNat_lt.mp hascii
    refine .inr ⟨[], ?_, rfl⟩
    rw [h, Array.toList_push, encode_append, encode_cons, utf8EncodeChar_ascii hb, List.append_nil]
    rfl
  · split
    · rename_i s hs
      exact .inr ⟨[b], by rw [h], Sequence.follows_of_start? hs⟩
    · exact .inl Array.mem_push_self

/-- One byte more. -/
theorem Lossless.feed {bytes : List UInt8} {d : Decoder} (h : Lossless bytes d) (b : UInt8) :
    Lossless (bytes ++ [b]) (d.feed b) := by
  rcases h with h | ⟨lead, hbytes, hlead⟩
  · exact .inl (mem_text_feed h b)
  obtain ⟨text, pending⟩ := d
  rcases pending with _ | s
  · obtain rfl : lead = [] := hlead
    rw [List.append_nil] at hbytes
    exact lossless_first hbytes b
  · have hfollows : s.Follows lead := hlead
    by_cases hin : s.low ≤ b ∧ b ≤ s.high
    · unfold Decoder.feed
      dsimp only
      rw [if_pos hin]
      split
      · rename_i hlater
        have hchar := hfollows.last hin.1 hin.2 hlater
        refine .inr ⟨[], ?_, rfl⟩
        rw [hbytes, Array.toList_push, encode_append, List.append_nil, List.append_assoc, ← hchar]
        exact congrArg _ (List.append_nil _).symm
      · rename_i later hlater
        exact .inr ⟨lead ++ [b], by rw [hbytes, List.append_assoc],
          hfollows.next hin.1 hin.2 hlater⟩
    · have hfirst : Decoder.feed ⟨text, some s⟩ b = first (text.push replacement) b := if_neg hin
      rw [hfirst]
      exact .inl (mem_text_first Array.mem_push_self b)

/-- All bytes. -/
theorem Lossless.foldl {bytes : List UInt8} {d : Decoder} (h : Lossless bytes d)
    (later : List UInt8) : Lossless (bytes ++ later) (later.foldl Decoder.feed d) := by
  induction later generalizing bytes d with
  | nil => rwa [List.append_nil]
  | cons b later ih =>
      have hstep := ih (h.feed b)
      rwa [List.append_assoc, List.singleton_append] at hstep

end Decoder

/-- **Bytes that are no text are not passed over**: they read as a replacement. -/
theorem replacement_mem_decode {bytes : List UInt8} (h : ¬ bytes.toByteArray.IsValidUTF8) :
    replacement ∈ decode bytes := by
  have hstart : Decoder.Lossless [] {} := .inr ⟨[], rfl, rfl⟩
  have hread := hstart.foldl bytes
  rw [List.nil_append] at hread
  unfold decode Decoder.finish
  split
  · rename_i hpending
    rcases hread with hmem | ⟨lead, hbytes, hlead⟩
    · simpa using hmem
    · rw [hpending] at hlead
      obtain rfl : lead = [] := hlead
      rw [List.append_nil] at hbytes
      exact absurd ⟨_, congrArg List.toByteArray hbytes⟩ h
  · exact List.mem_append_right _ List.mem_cons_self

end RiscvListing.Utf8
