import RiscvListing.Text.Utf8
import Mathlib

/-!
# Reading text from bytes

* `Utf8.encode_injective`, `Utf8.mem_encode_of_ascii`: the bytes determine the text, and an ASCII
  byte stands only for its own character.
* `Utf8.Decoder.after`: a decoder that has read some text before. What has been read is kept
  (`Utf8.Decoder.foldl_feed_after`).
* **ASCII bytes restart the decoder** (`Utf8.decode_append_cons`): text can be cut at any ASCII
  byte, whatever the bytes around it are.
* **Reading undoes writing** (`Utf8.decode_encode_append`), whatever bytes follow.
* **No ASCII character comes from other bytes** (`Utf8.mem_of_mem_decode`), because every pending
  character is bound to be above them (`Utf8.Sequence.AboveAscii`).
-/

namespace RiscvListing.Utf8

/-! ## Writing -/

/-- The bytes determine the text. -/
theorem encode_injective : Function.Injective encode := by
  intro s t h
  have hbytes : s.utf8Encode = t.utf8Encode := congrArg List.toByteArray h
  have hdecode := congrArg ByteArray.utf8Decode? hbytes
  rw [List.utf8Decode?_utf8Encode, List.utf8Decode?_utf8Encode] at hdecode
  exact List.toArray_inj (Option.some.inj hdecode)

theorem encode_append (s t : List Char) : encode (s ++ t) = encode s ++ encode t :=
  List.flatMap_append

theorem encode_cons (c : Char) (s : List Char) :
    encode (c :: s) = String.utf8EncodeChar c ++ encode s := List.flatMap_cons

/-- A byte below `0x80` stands only for its own character. -/
theorem eq_of_mem_utf8EncodeChar {b : UInt8} (hb : b < 0x80) {c : Char}
    (h : b ∈ String.utf8EncodeChar c) : c = Char.ofNat b.toNat := by
  have hb : b.toNat < 0x80 := UInt8.lt_iff_toNat_lt.mp hb
  have hvalue : c.val.toNat = b.toNat := by
    unfold String.utf8EncodeChar at h
    dsimp only at h
    split at h
    · rw [List.mem_singleton.mp h, UInt8.toNat_ofNat']
      omega
    · -- every byte of a longer character is at least `0x80`
      exfalso
      split at h
      · simp only [List.mem_cons, List.not_mem_nil, or_false] at h
        rcases h with rfl | rfl <;> rw [UInt8.toNat_ofNat'] at hb <;> omega
      · split at h
        · simp only [List.mem_cons, List.not_mem_nil, or_false] at h
          rcases h with rfl | rfl | rfl <;> rw [UInt8.toNat_ofNat'] at hb <;> omega
        · simp only [List.mem_cons, List.not_mem_nil, or_false] at h
          rcases h with rfl | rfl | rfl | rfl <;> rw [UInt8.toNat_ofNat'] at hb <;> omega
  rw [← hvalue]
  exact (Char.ofNat_toNat c).symm

/-- An ASCII byte of a written text comes from its character. -/
theorem mem_encode_of_ascii {b : UInt8} (hb : b < 0x80) {s : List Char} (h : b ∈ encode s) :
    Char.ofNat b.toNat ∈ s := by
  obtain ⟨c, hc, hmem⟩ := List.mem_flatMap.mp h
  rwa [← eq_of_mem_utf8EncodeChar hb hmem]

/-! ## Reading piece by piece -/

namespace Decoder

/-- A decoder that has read some text before. -/
def after (text : Array Char) (d : Decoder) : Decoder := ⟨text ++ d.text, d.pending⟩

theorem first_append (text more : Array Char) (b : UInt8) :
    first (text ++ more) b = (first more b).after text := by
  unfold first after
  split
  · simp
  · split <;> simp

/-- What has been read before is kept. -/
theorem feed_after (text : Array Char) (d : Decoder) (b : UInt8) :
    (d.after text).feed b = (d.feed b).after text := by
  obtain ⟨more, pending⟩ := d
  rcases pending with _ | s
  · exact first_append text more b
  · have hfirst := first_append text (more.push replacement) b
    unfold feed
    dsimp only [after]
    split
    · split <;> simp
    · rw [Array.append_push] at hfirst
      exact hfirst

theorem foldl_feed_after (text : Array Char) (d : Decoder) (bytes : List UInt8) :
    bytes.foldl feed (d.after text) = (bytes.foldl feed d).after text := by
  induction bytes generalizing d with
  | nil => rfl
  | cons b bytes ih => rw [List.foldl_cons, List.foldl_cons, feed_after, ih]

theorem finish_after (text : Array Char) (d : Decoder) :
    (d.after text).finish = text.toList ++ d.finish := by
  obtain ⟨more, pending⟩ := d
  rcases pending with _ | s <;> simp [finish, after]

/-- An ASCII byte ends whatever is pending and stands for itself. -/
theorem feed_ascii (d : Decoder) {b : UInt8} (hb : b < 0x80) :
    d.feed b = after (d.finish ++ [Char.ofNat b.toNat]).toArray {} := by
  obtain ⟨text, pending⟩ := d
  rcases pending with _ | s
  · have hpush : text.push (Char.ofNat b.toNat) =
        (text.toList ++ [Char.ofNat b.toNat]).toArray := by simp [← Array.toList_inj]
    simp [feed, first, hb, finish, after, hpush]
  · have hpush : (text.push replacement).push (Char.ofNat b.toNat) =
        (text.toList ++ [replacement, Char.ofNat b.toNat]).toArray := by simp [← Array.toList_inj]
    have hout : ¬ (s.low ≤ b ∧ b ≤ s.high) := fun h =>
      absurd (UInt8.le_trans s.not_ascii h.1) (UInt8.not_le.mpr hb)
    simp [feed, hout, first, hb, finish, after, hpush]

end Decoder

/-- **ASCII bytes restart the decoder**: the text before and the text after one are read on their
own. -/
theorem decode_append_cons (bytes : List UInt8) {b : UInt8} (hb : b < 0x80) (rest : List UInt8) :
    decode (bytes ++ b :: rest) = decode bytes ++ Char.ofNat b.toNat :: decode rest := by
  unfold decode
  rw [List.foldl_append, List.foldl_cons, Decoder.feed_ascii _ hb, Decoder.foldl_feed_after,
    Decoder.finish_after]
  simp

/-! ## Reading undoes writing -/

namespace Decoder

/-- The first of two bytes. -/
theorem first_two (text : Array Char) {n : Nat} (h : 2 ≤ n) (hn : n < 32) :
    ∃ s, first text (UInt8.ofNat (n + 192)) = ⟨text, some s⟩ ∧ s.later = 0 ∧ s.bits = n ∧
      s.low.toNat = 0x80 ∧ s.high.toNat = 0xBF := by
  interval_cases n <;> exact ⟨_, rfl, rfl, rfl, rfl, rfl⟩

/-- The first of three bytes. -/
theorem first_three (text : Array Char) {n : Nat} (hn : n < 16) :
    ∃ s, first text (UInt8.ofNat (n + 224)) = ⟨text, some s⟩ ∧ s.later = 1 ∧ s.bits = n ∧
      s.low.toNat = (if n = 0 then 0xA0 else 0x80) ∧
      s.high.toNat = if n = 0xD then 0x9F else 0xBF := by
  interval_cases n <;> exact ⟨_, rfl, rfl, rfl, rfl, rfl⟩

/-- The first of four bytes. -/
theorem first_four (text : Array Char) {n : Nat} (hn : n ≤ 4) :
    ∃ s, first text (UInt8.ofNat (n + 240)) = ⟨text, some s⟩ ∧ s.later = 2 ∧ s.bits = n ∧
      s.low.toNat = (if n = 0 then 0x90 else 0x80) ∧
      s.high.toNat = if n = 4 then 0x8F else 0xBF := by
  interval_cases n <;> exact ⟨_, rfl, rfl, rfl, rfl, rfl⟩

/-- The last byte of a character. -/
theorem feed_last (text : Array Char) {s : Sequence} {n : Nat} (hlater : s.later = 0)
    (hn : n < 64) (hlow : s.low.toNat ≤ n + 128) (hhigh : n + 128 ≤ s.high.toNat) :
    feed ⟨text, some s⟩ (UInt8.ofNat (n + 128)) =
      ⟨text.push (Char.ofNat (s.bits * 64 + n)), none⟩ := by
  have hb : (UInt8.ofNat (n + 128)).toNat = n + 128 := by
    rw [UInt8.toNat_ofNat']
    omega
  have hin : s.low ≤ UInt8.ofNat (n + 128) ∧ UInt8.ofNat (n + 128) ≤ s.high := by
    rw [UInt8.le_iff_toNat_le, UInt8.le_iff_toNat_le, hb]
    exact ⟨hlow, hhigh⟩
  unfold feed
  dsimp only
  rw [if_pos hin, hb, hlater, Nat.add_sub_cancel]

/-- A byte of a character after which more are to come. -/
theorem feed_inner (text : Array Char) {s : Sequence} {n later : Nat} (hlater : s.later = later + 1)
    (hn : n < 64) (hlow : s.low.toNat ≤ n + 128) (hhigh : n + 128 ≤ s.high.toNat) :
    ∃ s', feed ⟨text, some s⟩ (UInt8.ofNat (n + 128)) = ⟨text, some s'⟩ ∧ s'.later = later ∧
      s'.bits = s.bits * 64 + n ∧ s'.low.toNat = 0x80 ∧ s'.high.toNat = 0xBF := by
  have hb : (UInt8.ofNat (n + 128)).toNat = n + 128 := by
    rw [UInt8.toNat_ofNat']
    omega
  have hin : s.low ≤ UInt8.ofNat (n + 128) ∧ UInt8.ofNat (n + 128) ≤ s.high := by
    rw [UInt8.le_iff_toNat_le, UInt8.le_iff_toNat_le, hb]
    exact ⟨hlow, hhigh⟩
  unfold feed
  dsimp only
  rw [if_pos hin, hb, hlater, Nat.add_sub_cancel]
  exact ⟨_, rfl, rfl, rfl, rfl, rfl⟩

theorem foldl_feed_one (text : Array Char) {v : Nat} (h : v ≤ 0x7F) :
    [UInt8.ofNat v].foldl feed ⟨text, none⟩ = ⟨text.push (Char.ofNat v), none⟩ := by
  have hb : (UInt8.ofNat v).toNat = v := by
    rw [UInt8.toNat_ofNat']
    omega
  have hascii : UInt8.ofNat v < 0x80 := by
    rw [UInt8.lt_iff_toNat_lt, hb]
    exact Nat.lt_succ_of_le h
  show first text (UInt8.ofNat v) = _
  rw [first, if_pos hascii, hb]

theorem foldl_feed_two (text : Array Char) {v : Nat} (h : 0x7F < v) (hle : v ≤ 0x7FF) :
    [UInt8.ofNat (v / 64 % 32 + 192), UInt8.ofNat (v % 64 + 128)].foldl feed ⟨text, none⟩ =
      ⟨text.push (Char.ofNat v), none⟩ := by
  obtain ⟨s, hs, hlater, hbits, hlow, hhigh⟩ :=
    first_two text (show 2 ≤ v / 64 % 32 by omega) (by omega)
  have hsum : v / 64 % 32 * 64 + v % 64 = v := by omega
  show feed (first text _) _ = _
  rw [hs, feed_last text hlater (by omega) (by omega) (by omega), hbits, hsum]

/-- The first byte narrows the second one so that no shorter character is spelled again and no
surrogate. -/
theorem foldl_feed_three (text : Array Char) {v : Nat} (h : 0x7FF < v) (hle : v ≤ 0xFFFF)
    (hvalid : v < 0xD800 ∨ 0xDFFF < v) :
    [UInt8.ofNat (v / 4096 % 16 + 224), UInt8.ofNat (v / 64 % 64 + 128),
        UInt8.ofNat (v % 64 + 128)].foldl feed ⟨text, none⟩ =
      ⟨text.push (Char.ofNat v), none⟩ := by
  obtain ⟨s, hs, hlater, hbits, hlow, hhigh⟩ :=
    first_three text (show v / 4096 % 16 < 16 by omega)
  obtain ⟨s', hs', hlater', hbits', hlow', hhigh'⟩ :=
    feed_inner text hlater (show v / 64 % 64 < 64 by omega)
      (by rw [hlow]; split <;> omega) (by rw [hhigh]; split <;> omega)
  have hsum : (v / 4096 % 16 * 64 + v / 64 % 64) * 64 + v % 64 = v := by omega
  show feed (feed (first text _) _) _ = _
  rw [hs, hs', feed_last text hlater' (by omega) (by omega) (by omega), hbits', hbits, hsum]

theorem foldl_feed_four (text : Array Char) {v : Nat} (h : 0xFFFF < v) (hlt : v < 0x110000) :
    [UInt8.ofNat (v / 262144 % 8 + 240), UInt8.ofNat (v / 4096 % 64 + 128),
        UInt8.ofNat (v / 64 % 64 + 128), UInt8.ofNat (v % 64 + 128)].foldl feed ⟨text, none⟩ =
      ⟨text.push (Char.ofNat v), none⟩ := by
  obtain ⟨s, hs, hlater, hbits, hlow, hhigh⟩ :=
    first_four text (show v / 262144 % 8 ≤ 4 by omega)
  obtain ⟨s', hs', hlater', hbits', hlow', hhigh'⟩ :=
    feed_inner text hlater (show v / 4096 % 64 < 64 by omega)
      (by rw [hlow]; split <;> omega) (by rw [hhigh]; split <;> omega)
  obtain ⟨s'', hs'', hlater'', hbits'', hlow'', hhigh''⟩ :=
    feed_inner text hlater' (show v / 64 % 64 < 64 by omega) (by omega) (by omega)
  have hsum : ((v / 262144 % 8 * 64 + v / 4096 % 64) * 64 + v / 64 % 64) * 64 + v % 64 = v := by
    omega
  show feed (feed (feed (first text _) _) _) _ = _
  rw [hs, hs', hs'', feed_last text hlater'' (by omega) (by omega) (by omega), hbits'', hbits',
    hbits, hsum]

/-- Reading the bytes of a character gives the character. -/
theorem foldl_feed_utf8EncodeChar (text : Array Char) (c : Char) :
    (String.utf8EncodeChar c).foldl feed ⟨text, none⟩ = ⟨text.push c, none⟩ := by
  have hvalid : c.val.toNat < 0xD800 ∨ 0xDFFF < c.val.toNat ∧ c.val.toNat < 0x110000 := c.valid
  have hc : Char.ofNat c.val.toNat = c := Char.ofNat_toNat c
  unfold String.utf8EncodeChar
  dsimp only
  rw [← congrArg text.push hc]
  split
  · exact foldl_feed_one text (by omega)
  · split
    · exact foldl_feed_two text (by omega) (by omega)
    · split
      · exact foldl_feed_three text (by omega) (by omega) (by omega)
      · exact foldl_feed_four text (by omega) (by omega)

theorem foldl_feed_encode (text : Array Char) (s : List Char) :
    (encode s).foldl feed ⟨text, none⟩ = ⟨text ++ s, none⟩ := by
  induction s generalizing text with
  | nil => simp [encode]
  | cons c s ih =>
      rw [encode_cons, List.foldl_append, foldl_feed_utf8EncodeChar, ih]
      simp

end Decoder

/-- **Reading undoes writing**, whatever bytes follow. -/
theorem decode_encode_append (s : List Char) (rest : List UInt8) :
    decode (encode s ++ rest) = s ++ decode rest := by
  have hs : (encode s).foldl Decoder.feed {} = Decoder.after s.toArray {} := by
    rw [Decoder.foldl_feed_encode]
    simp [Decoder.after]
  unfold decode
  rw [List.foldl_append, hs, Decoder.foldl_feed_after, Decoder.finish_after]

/-! ## Where ASCII characters come from -/

/-- Whatever bytes complete the character, it is none of the ASCII ones. -/
def Sequence.AboveAscii (s : Sequence) : Prop :=
  0x80 ≤ (s.bits * 64 + (s.low.toNat - 0x80)) * 64 ^ s.later

theorem Sequence.aboveAscii_of_start? {b : UInt8} {s : Sequence} (h : start? b = some s) :
    s.AboveAscii := by
  unfold start? at h
  simp only [UInt8.le_iff_toNat_le, UInt8.reduceToNat] at h
  unfold AboveAscii
  split_ifs at h
  all_goals
    obtain rfl := Option.some.inj h
    simp only [UInt8.reduceToNat]
    omega

namespace Decoder

/-- The decoder after some bytes: every ASCII character of its text comes from one of them, and no
more can come of what is pending. The character zero is left out, which also stands for numbers
that are no code points. -/
structure Sound (bytes : List UInt8) (d : Decoder) : Prop where
  /-- The text has the ASCII characters that stand among the bytes. -/
  text : ∀ c ∈ d.text, 0 < c.toNat → c.toNat < 0x80 → ∃ b ∈ bytes, b.toNat = c.toNat
  /-- What is pending becomes none. -/
  pending : ∀ s ∈ d.pending, s.AboveAscii

variable {bytes : List UInt8}

theorem Sound.push {text : Array Char} (h : Sound bytes ⟨text, none⟩) {c : Char}
    (hc : 0 < c.toNat → c.toNat < 0x80 → ∃ b ∈ bytes, b.toNat = c.toNat) :
    Sound bytes ⟨text.push c, none⟩ where
  text := by
    intro e he
    rcases Array.mem_push.mp he with he | rfl
    · exact h.text e he
    · exact hc
  pending := nofun

/-- A number above the ASCII characters becomes none of them. -/
theorem Sound.push_ofNat {text : Array Char} (h : Sound bytes ⟨text, none⟩) {n : Nat}
    (hn : 0x80 ≤ n) : Sound bytes ⟨text.push (Char.ofNat n), none⟩ := by
  refine h.push fun hpos hlt => ?_
  rw [Char.toNat_ofNat] at hpos hlt
  split at hlt
  · omega
  · rw [if_neg ‹_›] at hpos
    exact absurd hpos (Nat.lt_irrefl 0)

/-- A byte between two characters. -/
theorem Sound.first {text : Array Char} (h : Sound bytes ⟨text, none⟩) {b : UInt8}
    (hb : b ∈ bytes) : Sound bytes (first text b) := by
  unfold Decoder.first
  split
  · refine h.push fun hpos _ => ⟨b, hb, ?_⟩
    rw [Char.toNat_ofNat] at hpos ⊢
    split at hpos
    · rw [if_pos ‹_›]
    · exact absurd hpos (Nat.lt_irrefl 0)
  · split
    · rename_i s hs
      refine ⟨h.text, fun s' hs' => ?_⟩
      obtain rfl := Option.some.inj hs'
      exact Sequence.aboveAscii_of_start? hs
    · exact h.push fun _ hlt => absurd hlt (by decide)

/-- One byte more. -/
theorem Sound.feed {d : Decoder} (h : Sound bytes d) {b : UInt8} (hb : b ∈ bytes) :
    Sound bytes (d.feed b) := by
  obtain ⟨text, pending⟩ := d
  have hnone : Sound bytes ⟨text, none⟩ := ⟨h.text, nofun⟩
  rcases pending with _ | s
  · exact hnone.first hb
  · have habove : s.AboveAscii := h.pending s rfl
    unfold Sequence.AboveAscii at habove
    unfold Decoder.feed
    dsimp only
    split
    · rename_i hin
      have hlow : s.low.toNat ≤ b.toNat := UInt8.le_iff_toNat_le.mp hin.1
      have hbits : s.bits * 64 + (s.low.toNat - 0x80) ≤ s.bits * 64 + (b.toNat - 0x80) := by omega
      have hmore := habove.trans (Nat.mul_le_mul_right (64 ^ s.later) hbits)
      split
      · rename_i hlater
        rw [hlater, Nat.pow_zero, Nat.mul_one] at hmore
        exact hnone.push_ofNat hmore
      · rename_i later hlater
        refine ⟨h.text, fun s' hs' => ?_⟩
        obtain rfl := Option.some.inj hs'
        rw [hlater, Nat.pow_succ', ← Nat.mul_assoc] at hmore
        simpa [Sequence.AboveAscii] using hmore
    · exact (hnone.push fun _ hlt => absurd hlt (by decide)).first hb

/-- All bytes. -/
theorem Sound.foldl {d : Decoder} (h : Sound bytes d) {later : List UInt8}
    (hsub : ∀ b ∈ later, b ∈ bytes) : Sound bytes (later.foldl Decoder.feed d) := by
  induction later generalizing d with
  | nil => exact h
  | cons b later ih =>
      exact ih (h.feed (hsub b List.mem_cons_self)) fun e he => hsub e (List.mem_cons_of_mem b he)

end Decoder

/-- **No ASCII character comes from other bytes**: it stands among the bytes itself. -/
theorem mem_of_mem_decode {bytes : List UInt8} {c : Char} (hpos : 0 < c.toNat)
    (hlt : c.toNat < 0x80) (h : c ∈ decode bytes) : UInt8.ofNat c.toNat ∈ bytes := by
  have hsound : Decoder.Sound bytes (bytes.foldl Decoder.feed {}) :=
    Decoder.Sound.foldl ⟨by simp, by simp⟩ fun _ hb => hb
  have hmem : c ∈ (bytes.foldl Decoder.feed {}).text := by
    unfold decode Decoder.finish at h
    split at h
    · simpa using h
    · rcases List.mem_append.mp h with h | h
      · simpa using h
      · rw [List.mem_singleton.mp h] at hlt
        exact absurd hlt (by decide)
  obtain ⟨b, hb, hbc⟩ := hsound.text c hmem hpos hlt
  rwa [← hbc, UInt8.ofNat_toNat]

end RiscvListing.Utf8
