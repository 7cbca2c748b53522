import RiscvListing.Proofs.Numeral
import RiscvListing.Proofs.Policies

/-!
# The addresses of a listing

Addresses have 32 bits and are checked before a listing starts, in a wider arithmetic.

* `Listing.shownWords`, `Listing.lineBytes_eq_shownWords`: the words that have a line under the
  policy, and the bytes of these lines.
* `Listing.shownAddresses`: the addresses read back from the lines of a listing.
  `Listing.shownAddresses_bytesOf` says that they are those of the words.
* `Event.address?`: the address in a warning. `Listing.warnedAddresses_wordActions` says which
  addresses are warned about, as they wrap around.
* `Listing.fits64?`: the check of the last address in 64-bit arithmetic, which has no result if a
  step of it overflows. `Listing.fits64?_eq_fits` says that this does not happen and that the check
  is the exact one.
* **Addresses are exact** (`Listing.run_checks_addresses`).
-/

namespace RiscvListing

namespace Listing

/-- If addresses are not in order, they are shown and one of them is too large. -/
theorem not_addressesExact_iff (config : Config) (count : Nat) :
    ¬ AddressesExact config count ↔
      config.addresses = true ∧ ∃ i < count, 2 ^ 32 ≤ config.base.toNat + 4 * i := by
  simp only [AddressesExact, Classical.not_imp, not_forall, not_lt]

/-! ## The words that have a line -/

/-- The words that have a line, with their indices: all of them if rejected words are marked, the
instructions if they are skipped, and the instructions before the first rejected word if the listing
is aborted there. -/
def shownWords (config : Config) (words : List Word) : List (Word × Nat) :=
  match config.onInvalid with
  | .mark => words.zipIdx
  | .skip => words.zipIdx.filter fun p => Word.decodes p.1
  | .abort => words.zipIdx.takeWhile fun p => Word.decodes p.1

theorem shownWords_sublist (config : Config) (words : List Word) :
    (shownWords config words).Sublist words.zipIdx := by
  unfold shownWords
  split
  · exact List.Sublist.refl _
  · exact List.filter_sublist
  · exact List.takeWhile_sublist _

section

variable {config : Config} {words : List Word}

/-- The bytes of a listing are the lines of the words that have one. -/
theorem lineBytes_eq_shownWords (haddr : AddressesExact config words.length) :
    lineBytes (wordActions config words) =
      bytesOf ((shownWords config words).map (indexedLine config)) := by
  unfold shownWords
  split
  · rename_i hmark
    exact lineBytes_of_mark hmark haddr
  · rename_i hskip
    exact lineBytes_of_skip hskip haddr
  · rename_i habort
    exact (lineBytes_of_abort habort haddr).1

end

/-! ## Reading addresses back -/

/-- The address that the first eight characters of a line spell. -/
def lineAddress? (line : List UInt8) : Option Nat :=
  (HexWord.parse? ((Utf8.decode line).take 8)).map BitVec.toNat

/-- The addresses at the start of the lines of a listing. -/
def shownAddresses (bytes : List UInt8) : List (Option Nat) := (cutLines bytes).map lineAddress?

/-- The address of the word at an index, as a number that does not wrap around. -/
def exactAddress (config : Config) (p : Word × Nat) : Nat := config.base.toNat + 4 * p.2

theorem shownAddresses_isPrefix {bytes more : List UInt8} (h : bytes <+: more) :
    shownAddresses bytes <+: shownAddresses more := by
  obtain ⟨rest, rfl⟩ := h
  exact (cutLines_isPrefix_append bytes rest).map lineAddress?

section

variable {config : Config}

/-- The line of a word starts with its address. -/
theorem lineAddress?_indexedLine (hshown : config.addresses = true) {p : Word × Nat}
    (hlt : exactAddress config p < 2 ^ 32) :
    lineAddress? (Utf8.encode (indexedLine config p).toList) = some (exactAddress config p) := by
  obtain ⟨rest, hline⟩ :
      ∃ rest, indexedLine config p = Numeral.hexPadded 8 (exactAddress config p) ++ rest := by
    unfold indexedLine wordLine exactColumns exactAddress
    rw [if_pos hshown]
    simp only [String.append_assoc]
    exact ⟨_, rfl⟩
  have hlength := Numeral.length_hexPadded (by decide : 0 < 8) hlt
  have hvalue : (BitVec.ofNat 32 (exactAddress config p)).toNat = exactAddress config p :=
    Nat.mod_eq_of_lt hlt
  have hparse := HexWord.parse?_hexPadded (BitVec.ofNat 32 (exactAddress config p))
  rw [hvalue] at hparse
  unfold lineAddress?
  rw [hline, String.toList_append, Utf8.encode_append, Utf8.decode_encode_append,
    List.take_left' hlength, hparse, Option.map_some, hvalue]

/-- The addresses of lines are those of their words. -/
theorem shownAddresses_bytesOf (hshown : config.addresses = true) {ps : List (Word × Nat)}
    (hlt : ∀ p ∈ ps, exactAddress config p < 2 ^ 32) :
    shownAddresses (bytesOf (ps.map (indexedLine config))) =
      (ps.map (exactAddress config)).map some := by
  rw [shownAddresses, cutLines_bytesOf, List.map_map, List.map_map]
  apply List.map_congr_left
  intro p hp
  exact lineAddress?_indexedLine hshown (hlt p hp)

end

/-- Later words have larger addresses. -/
theorem pairwise_exactAddress (config : Config) (words : List Word) :
    ((shownWords config words).map (exactAddress config)).Pairwise (· < ·) := by
  have hindices : (words.zipIdx.map Prod.snd).Pairwise (· < ·) := by
    rw [List.zipIdx_map_snd]
    exact List.pairwise_lt_range'
  have hpairs := (List.pairwise_map.mp hindices).sublist (shownWords_sublist config words)
  refine List.pairwise_map.mpr (hpairs.imp fun {p q} hlt => ?_)
  unfold exactAddress
  omega

end Listing

/-! ## The addresses of warnings -/

/-- The address in a warning about a word. -/
def Event.address? : Event → Option Nat
  | .skippingInvalid address _ | .markingInvalid address _ => some address.toNat
  | _ => none

namespace Listing

/-- The address of the word at an index, as it wraps around. -/
def wrappedAddress (config : Config) (p : Word × Nat) : Nat :=
  (config.base.toNat + 4 * p.2) % 2 ^ 32

section

variable {config : Config} {words : List Word}

/-- The address that one word is warned about with. -/
theorem map_address?_wordAction (hpolicy : config.onInvalid ≠ .abort) (p : Word × Nat) :
    (warningsOf (wordAction config p).events).map Event.address? =
      if !Word.decodes p.1 then [some (wrappedAddress config p)] else [] := by
  unfold wrappedAddress Word.decodes wordAction action
  rw [← toNat_address]
  rcases decode p.1 with r | i
  · rcases hp : config.onInvalid with _ | _ | _
    · exact absurd hp hpolicy
    · rfl
    · rfl
  · rfl

/-- The addresses of the warnings of a listing are those of the rejected words, unless a word ends
the listing. -/
theorem warnedAddresses_wordActions (hpolicy : config.onInvalid ≠ .abort) :
    (warningsOf (reported (wordActions config words))).map Event.address? =
      (words.zipIdx.filter fun p => !Word.decodes p.1).map fun p =>
        some (wrappedAddress config p) :=
  map_warningsOf_reported hpolicy fun p _ => map_address?_wordAction hpolicy p

end

/-! ## The check in 64-bit arithmetic -/

/-- A product of 64-bit numbers, unless it overflows. -/
def mul64? (a b : BitVec 64) : Option (BitVec 64) :=
  if a.umulOverflow b then none else some (a * b)

/-- A sum of 64-bit numbers, unless it overflows. -/
def add64? (a b : BitVec 64) : Option (BitVec 64) :=
  if a.uaddOverflow b then none else some (a + b)

/-- The check of the last of so many words in 64-bit arithmetic, unless a product or a sum in it
overflows. Without words, the first address is checked. -/
def fits64? (config : Config) (count : BitVec 64) : Option Bool := do
  let last : BitVec 64 := BitVec.ofNat 64 (count.toNat - 1)
  let span ← mul64? last 4
  let sum ← add64? (config.base.setWidth 64) span
  return decide (sum.toNat ≤ 0xFFFFFFFF)

section

variable {a b : BitVec 64} {m n : Nat}

theorem mul64?_eq_some (ha : a.toNat = m) (hb : b.toNat = n) (h : m * n < 2 ^ 64) :
    ∃ c, mul64? a b = some c ∧ c.toNat = m * n := by
  subst ha hb
  have hoverflow : a.umulOverflow b = false := decide_eq_false (by omega)
  refine ⟨a * b, ?_, ?_⟩
  · rw [mul64?, hoverflow]
    rfl
  · rw [BitVec.toNat_mul, Nat.mod_eq_of_lt h]

theorem add64?_eq_some (ha : a.toNat = m) (hb : b.toNat = n) (h : m + n < 2 ^ 64) :
    ∃ c, add64? a b = some c ∧ c.toNat = m + n := by
  subst ha hb
  have hoverflow : a.uaddOverflow b = false := decide_eq_false (by omega)
  refine ⟨a + b, ?_, ?_⟩
  · rw [add64?, hoverflow]
    rfl
  · rw [BitVec.toNat_add, Nat.mod_eq_of_lt h]

/-- **The check does not overflow** for as many words as 64-bit memory can hold, and is exact. -/
theorem fits64?_eq_fits (config : Config) (h : n ≤ 2 ^ 61 - 1) :
    fits64? config (BitVec.ofNat 64 n) = some (fits config n) := by
  have hlt := config.base.isLt
  have hcount : (BitVec.ofNat 64 n).toNat = n := Nat.mod_eq_of_lt (by omega)
  have hlast : (BitVec.ofNat 64 (n - 1)).toNat = n - 1 := Nat.mod_eq_of_lt (by omega)
  have hbase : (config.base.setWidth 64).toNat = config.base.toNat := by
    rw [BitVec.toNat_setWidth, Nat.mod_eq_of_lt (by omega)]
  have hfour : (4 : BitVec 64).toNat = 4 := rfl
  obtain ⟨span, hmul, hspan⟩ := mul64?_eq_some hlast hfour (by omega)
  obtain ⟨sum, hadd, hsum⟩ := add64?_eq_some hbase hspan (by omega)
  unfold fits64? fits
  dsimp only
  rw [hcount, hmul, Option.bind_eq_bind, Option.bind_some, hadd, Option.bind_some, hsum,
    Nat.mul_comm 4]
  rfl

end

/-! ## Whole listings -/

section

variable {config : Config} (machine : Machine) (sink : Sink) {words : List Word}

/-- A listing fails for its addresses if these are shown and one of them is too large. -/
theorem result_eq_invalidAddressRange_iff (base : Word) (count : Nat) :
    (run config machine sink words).result = .error (.invalidAddressRange base count) ↔
      base = config.base ∧ count = words.length ∧ config.addresses = true ∧
        ∃ i < words.length, 2 ^ 32 ≤ config.base.toNat + 4 * i := by
  rw [← not_addressesExact_iff]
  constructor
  · intro h
    have hnot : ¬ AddressesExact config words.length :=
      fun haddr => (run_isPrefix machine sink haddr.fit).2.2 base count h
    rw [run_eq_failed config machine sink fun haddr => hnot haddr.exact] at h
    obtain ⟨rfl, rfl⟩ := Failure.invalidAddressRange.inj (Except.error.inj h)
    exact ⟨rfl, rfl, hnot⟩
  · rintro ⟨rfl, rfl, hnot⟩
    rw [run_eq_failed config machine sink fun haddr => hnot haddr.exact]
    rfl

/-- The addresses at the start of the lines are exact and increase. -/
theorem exists_shownAddresses (hshown : config.addresses = true)
    (haddr : AddressesExact config words.length) :
    ∃ shown : List Nat,
      shownAddresses (run config machine sink words).written = shown.map some ∧
      shown.Pairwise (· < ·) ∧
      shown <+: (shownWords config words).map (exactAddress config) ∧
      (sink.NeverFails → shown = (shownWords config words).map (exactAddress config)) := by
  have hlt : ∀ p ∈ shownWords config words, exactAddress config p < 2 ^ 32 := by
    intro p hp
    have hmem := (shownWords_sublist config words).subset hp
    exact haddr hshown p.2 (List.snd_lt_of_mem_zipIdx hmem)
  have hlines := lineBytes_eq_shownWords haddr
  have hwhole := shownAddresses_bytesOf hshown hlt
  have hpart := shownAddresses_isPrefix (run_isPrefix machine sink haddr.fit).1
  rw [hlines, hwhole] at hpart
  obtain ⟨shown, hshownPart, hread⟩ := List.prefix_map_iff.mp hpart
  refine ⟨shown, hread, ?_, hshownPart, fun hsink => ?_⟩
  · exact (pairwise_exactAddress config words).sublist hshownPart.sublist
  · rw [run_of_neverFails config machine hsink haddr.fit] at hread
    dsimp only at hread
    rw [hlines, hwhole] at hread
    exact (Option.some_injective _).list_map hread.symm

/-- The addresses of warnings are those of the rejected words, as they wrap around. -/
theorem map_address?_warnings_isPrefix :
    (run config machine sink words).warnings.map Event.address? <+:
      (words.zipIdx.filter fun p => !Word.decodes p.1).map fun p =>
        some (wrappedAddress config p) := by
  by_cases haddr : AddressesExact config words.length
  · have hpart := (run_isPrefix machine sink haddr.fit).2.1.map Event.address?
    by_cases hpolicy : config.onInvalid = .abort
    · rw [(lineBytes_of_abort hpolicy haddr).2] at hpart
      exact hpart.trans List.nil_prefix
    · rwa [warnedAddresses_wordActions hpolicy] at hpart
  · rw [run_eq_failed config machine sink fun h => haddr h.exact]
    exact List.nil_prefix

end

/-- **Addresses are checked exactly**, on any sink. A listing fails for its addresses just if they
are shown and one of them has more than 32 bits. Otherwise the addresses at the start of its lines
are the exact addresses of the words that have a line, in order, so that they increase; on a sink
that does not fail, none of them is missing. Warnings give the addresses of the rejected words as
they wrap around, at any index. The check has the same result in 64-bit arithmetic, where nothing
overflows. -/
theorem run_checks_addresses (config : Config) (machine : Machine) (sink : Sink)
    (words : List Word) :
    let outcome := run config machine sink words
    let rejected := words.zipIdx.filter fun p => !Word.decodes p.1
    (∀ base count, outcome.result = .error (.invalidAddressRange base count) ↔
      base = config.base ∧ count = words.length ∧ config.addresses = true ∧
        ∃ i < words.length, 2 ^ 32 ≤ config.base.toNat + 4 * i) ∧
    (config.addresses = true → (∀ i < words.length, config.base.toNat + 4 * i < 2 ^ 32) →
      ∃ shown : List Nat, shownAddresses outcome.written = shown.map some ∧
        shown.Pairwise (· < ·) ∧
        shown <+: (shownWords config words).map (fun p => config.base.toNat + 4 * p.2) ∧
        (sink.NeverFails →
          shown = (shownWords config words).map (fun p => config.base.toNat + 4 * p.2))) ∧
    (∀ i, (address config i).toNat = (config.base.toNat + 4 * i) % 2 ^ 32) ∧
    outcome.warnings.map Event.address? <+:
      rejected.map (fun p => some ((config.base.toNat + 4 * p.2) % 2 ^ 32)) ∧
    (sink.NeverFails → config.onInvalid ≠ .abort → AddressesFit config words.length →
      outcome.warnings.map Event.address? =
        rejected.map (fun p => some ((config.base.toNat + 4 * p.2) % 2 ^ 32))) ∧
    ∀ n ≤ 2 ^ 61 - 1, fits64? config (BitVec.ofNat 64 n) = some (fits config n) := by
  intro outcome rejected
  refine ⟨result_eq_invalidAddressRange_iff machine sink, fun hshown hexact => ?_,
    toNat_address config, map_address?_warnings_isPrefix machine sink,
    fun hsink hpolicy haddr => ?_, fun n hn => fits64?_eq_fits config hn⟩
  · exact exists_shownAddresses machine sink hshown fun _ => hexact
  · have hwarnings : outcome.warnings = warningsOf (reported (wordActions config words)) :=
      warnings_run_of_neverFails config machine hsink haddr
    rw [hwarnings]
    exact warnedAddresses_wordActions hpolicy

/-- Two words, of which the first is marked, have the last two addresses; a third one would have
none. -/
theorem run_checks_addresses_last_words :
    let config : Config := { addresses := true, base := 0xFFFFFFF8 }
    let words : List Word := [0x0000007F, 0x00000073]
    (∀ i < words.length, config.base.toNat + 4 * i < 2 ^ 32) ∧ Sink.NeverFails {} ∧
    shownAddresses (run config { processors := 2 } {} words).written =
      [some 0xFFFFFFF8, some 0xFFFFFFFC] ∧
    (run config { processors := 2 } {} (words ++ [0x00000073])).result =
      .error (.invalidAddressRange 0xFFFFFFF8 3) := by
  intro config words
  have hexact : ∀ i < words.length, config.base.toNat + 4 * i < 2 ^ 32 := by decide
  have hsink : Sink.NeverFails {} := ⟨by decide, rfl, rfl⟩
  obtain ⟨-, hshown, -⟩ := run_checks_addresses config { processors := 2 } {} words
  obtain ⟨shown, hread, -, -, hall⟩ := hshown rfl hexact
  obtain ⟨hfails, -⟩ :=
    run_checks_addresses config { processors := 2 } {} (words ++ [0x00000073])
  refine ⟨hexact, hsink, ?_, ?_⟩
  · rw [hread, hall hsink]
    rfl
  · exact (hfails 0xFFFFFFF8 3).mpr ⟨rfl, rfl, rfl, 2, by decide, by decide⟩

end Listing

end RiscvListing
