import RiscvListing.Proofs.WordLines

/-!
# Listings in pieces

A long list of words can be listed in pieces, each from the address where the one before it ended.

* `Config.advance`: the same choices for a piece that starts some words later.
* `Listing.wordAction_advance`: a word of the later piece is treated as at its place in the whole
  list, so the actions of the pieces are the actions of the whole list
  (`Listing.wordActions_append`).
* `Listing.AddressesExact.append`: if the addresses of the whole list do not wrap around, neither do
  those of the pieces, not even if the second piece is empty and starts after the last address.
* **Pieces make up the whole** (`Listing.run_append`): lines and warnings follow one another and the
  counts add up. If a word of the first piece ends the listing, there is no more than the first
  piece.
-/

namespace RiscvListing

/-! ## Counts -/

/-- The counts of two lists together. -/
instance : Add Stats :=
  ⟨fun s t => ⟨s.words + t.words, s.decoded + t.decoded, s.invalid + t.invalid⟩⟩

theorem Stats.ofResults_append (xs ys : List (Except Rejection Instruction)) :
    Stats.ofResults (xs ++ ys) = Stats.ofResults xs + Stats.ofResults ys := by
  unfold Stats.ofResults
  rw [List.length_append, List.countP_append, List.countP_append]
  rfl

/-! ## Moving the first address -/

/-- The choices for a listing that starts so many words later, where the address may wrap around. -/
def Config.advance (config : Config) (count : Nat) : Config :=
  { config with base := BitVec.ofNat 32 (config.base.toNat + 4 * count) }

theorem Config.toNat_base_advance (config : Config) (count : Nat) :
    (config.advance count).base.toNat = (config.base.toNat + 4 * count) % 2 ^ 32 :=
  BitVec.toNat_ofNat ..

namespace Listing

/-- A word has the address that it has in the whole list. -/
theorem address_advance (config : Config) (count index : Nat) :
    address (config.advance count) index = address config (count + index) := by
  apply BitVec.eq_of_toNat_eq
  rw [toNat_address, toNat_address, Config.toNat_base_advance, Nat.mod_add_mod, Nat.mul_add,
    Nat.add_assoc]

/-- **One word of a later piece** is treated as at its place in the whole list. -/
theorem wordAction_advance (config : Config) (count : Nat) (p : Word × Nat) :
    wordAction (config.advance count) p = wordAction config (p.1, count + p.2) := by
  have hcolumns : columns (config.advance count) p.2 p.1 = columns config (count + p.2) p.1 := by
    unfold columns
    rw [address_advance]
    rfl
  unfold wordAction action
  rw [hcolumns, address_advance]
  rfl

/-- The actions of the pieces make up the actions of the whole list. -/
theorem wordActions_append (config : Config) (xs ys : List Word) :
    wordActions config (xs ++ ys) =
      wordActions config xs ++ wordActions (config.advance xs.length) ys := by
  have hlater : (ys.zipIdx (0 + xs.length)).map (wordAction config) =
      wordActions (config.advance xs.length) ys := by
    rw [wordActions_eq_map, Nat.zero_add, List.zipIdx_eq_map_add, List.map_map]
    apply List.map_congr_left
    intro p _
    exact (wordAction_advance config xs.length p).symm
  rw [wordActions_eq_map, wordActions_eq_map, List.zipIdx_append, List.map_append, hlater]

/-- If no address of the whole list wraps around, none of the pieces does. The second piece may be
empty, and then its first address, which is not used, may be one that has wrapped around. -/
theorem AddressesExact.append {config : Config} {xs ys : List Word}
    (h : AddressesExact config (xs ++ ys).length) :
    AddressesExact config xs.length ∧ AddressesExact (config.advance xs.length) ys.length := by
  rw [List.length_append] at h
  refine ⟨fun hshown i hi => h hshown i (by omega), fun hshown i hi => ?_⟩
  have hplace := h hshown (xs.length + i) (by omega)
  rw [Config.toNat_base_advance, Nat.mod_eq_of_lt (by omega)]
  omega

/-! ## Actions before others -/

section

variable {acts : List Action}

/-- Actions of which none ends the listing write their bytes before those of the others. -/
theorem lineBytes_append_lineBytes (h : ∀ a ∈ acts, a.continues = true) (rest : List Action) :
    lineBytes (acts ++ rest) = lineBytes acts ++ lineBytes rest := by
  have halone := lineBytes_append h []
  rw [List.append_nil, lineBytes, List.append_nil] at halone
  rw [lineBytes_append h, halone]

theorem reported_append_reported (h : ∀ a ∈ acts, a.continues = true) (rest : List Action) :
    reported (acts ++ rest) = reported acts ++ reported rest := by
  have halone := reported_append h []
  rw [List.append_nil, reported, List.append_nil] at halone
  rw [reported_append h, halone]

end

/-- The counts of the first piece are added to those of the second. -/
theorem resultOf_append (xs ys : List Word) (e : Except Failure Unit) :
    resultOf (xs ++ ys) e =
      (resultOf ys e).map (Stats.ofResults (xs.map decode) + ·) := by
  unfold resultOf
  rw [List.map_append, Stats.ofResults_append]
  cases e <;> rfl

/-! ## The runs -/

section

variable {config : Config} (machine : Machine) {sink : Sink}

/-- The parts of a listing on a sink that never fails come from its actions. -/
theorem run_parts (hsink : sink.NeverFails) {words : List Word}
    (haddr : AddressesExact config words.length) :
    (run config machine sink words).written = lineBytes (wordActions config words) ∧
    (run config machine sink words).warnings = warningsOf (reported (wordActions config words)) ∧
    (run config machine sink words).result =
      resultOf words (ending (wordActions config words)) := by
  refine ⟨?_, warnings_run_of_neverFails config machine hsink haddr.fit, ?_⟩
  · rw [run_of_neverFails config machine hsink haddr.fit]
  · rw [run_of_neverFails config machine hsink haddr.fit]

variable {xs ys : List Word}

/-- If no word of the first piece ends the listing, the second piece follows it. -/
theorem run_append_of_continues
    (hcontinues : ∀ p ∈ xs.zipIdx, (wordAction config p).continues = true)
    (hsink : sink.NeverFails) (haddr : AddressesExact config (xs ++ ys).length) :
    let whole := run config machine sink (xs ++ ys)
    let first := run config machine sink xs
    let second := run (config.advance xs.length) machine sink ys
    whole.written = first.written ++ second.written ∧
    whole.warnings = first.warnings ++ second.warnings ∧
    ∃ s, first.result = .ok s ∧ whole.result = second.result.map (s + ·) := by
  obtain ⟨hfirst, hsecond⟩ := haddr.append
  obtain ⟨hwritten, hwarnings, hresult⟩ := run_parts machine hsink haddr
  obtain ⟨hwritten₁, hwarnings₁, hresult₁⟩ := run_parts machine hsink hfirst
  obtain ⟨hwritten₂, hwarnings₂, hresult₂⟩ := run_parts machine hsink hsecond
  have hacts := continues_of_mem_wordActions hcontinues
  dsimp only
  refine ⟨?_, ?_, Stats.ofResults (xs.map decode), ?_, ?_⟩
  · rw [hwritten, hwritten₁, hwritten₂, wordActions_append, lineBytes_append_lineBytes hacts]
  · rw [hwarnings, hwarnings₁, hwarnings₂, wordActions_append, reported_append_reported hacts,
      warningsOf_append]
  · rw [hresult₁, (wordActions_spec hcontinues).2.2]
    rfl
  · rw [hresult, hresult₂, wordActions_append, ending_append hacts, resultOf_append]

/-- If a word of the first piece ends the listing, it ends there whatever follows. -/
theorem run_append_of_rejected (habort : config.onInvalid = .abort)
    (hrejected : ¬ ∀ w ∈ xs, Word.decodes w = true) (hsink : sink.NeverFails)
    (haddr : AddressesExact config (xs ++ ys).length) :
    let whole := run config machine sink (xs ++ ys)
    let first := run config machine sink xs
    whole.written = first.written ∧ whole.result = first.result ∧
      ∃ r, first.result = .error (.rejected r) := by
  have hfirst : AddressesExact config xs.length := haddr.append.1
  obtain ⟨hwritten, -, hresult⟩ := run_parts machine hsink haddr
  obtain ⟨hwritten₁, -, hresult₁⟩ := run_parts machine hsink hfirst
  -- the first rejected word of the piece is also the first one of the whole list
  obtain ⟨before, w, after, r, rfl, hbefore, hr⟩ := exists_first_rejected hrejected
  rw [List.append_assoc, List.cons_append] at haddr hwritten hresult ⊢
  obtain ⟨hbytes, -, hending⟩ := wordActions_of_abort habort haddr hbefore hr
  obtain ⟨hbytes₁, -, hending₁⟩ := wordActions_of_abort habort hfirst hbefore hr
  dsimp only
  refine ⟨?_, ?_, r, ?_⟩
  · rw [hwritten, hwritten₁, hbytes, hbytes₁]
  · rw [hresult, hresult₁, hending, hending₁]
    rfl
  · rw [hresult₁, hending₁]
    rfl

end

/-- **Pieces make up the whole listing**, on a sink that never fails, if the addresses of the whole
list are in order. Marking and skipping, both pieces succeed; the lines and the warnings of the
second piece, which starts at the address after the first, follow those of the first piece, and the
counts add up. Aborting, the same goes for lines and result if all words of the first piece are
instructions, and the listing fails just when the second piece does; otherwise it is the listing of
the first piece and fails with it. -/
theorem run_append (config : Config) (machine : Machine) {sink : Sink} (hsink : sink.NeverFails)
    {xs ys : List Word} (haddr : AddressesFit config (xs ++ ys).length) :
    let whole := run config machine sink (xs ++ ys)
    let first := run config machine sink xs
    let second := run (config.advance xs.length) machine sink ys
    (config.onInvalid ≠ .abort →
      whole.written = first.written ++ second.written ∧
      whole.warnings = first.warnings ++ second.warnings ∧
      ∃ s t, first.result = .ok s ∧ second.result = .ok t ∧ whole.result = .ok (s + t)) ∧
    (config.onInvalid = .abort → (∀ w ∈ xs, Word.decodes w = true) →
      whole.written = first.written ++ second.written ∧
      (∃ s, first.result = .ok s ∧ whole.result = second.result.map (s + ·)) ∧
      ∀ failure, whole.result = .error failure ↔ second.result = .error failure) ∧
    (config.onInvalid = .abort → (¬ ∀ w ∈ xs, Word.decodes w = true) →
      whole.written = first.written ∧ whole.result = first.result ∧
      ∃ r, first.result = .error (.rejected r)) := by
  intro whole first second
  refine ⟨fun hpolicy => ?_, fun _ hd => ?_, fun habort hrejected => ?_⟩
  · obtain ⟨hwritten, hwarnings, s, hfirst, hwhole⟩ :=
      run_append_of_continues machine (fun p _ => continues_wordAction hpolicy p) hsink haddr.exact
    have hsecond : second.result = .ok _ :=
      result_of_not_abort machine hpolicy hsink haddr.exact.append.2
    refine ⟨hwritten, hwarnings, s, _, hfirst, hsecond, ?_⟩
    rw [hsecond] at hwhole
    exact hwhole
  · obtain ⟨hwritten, -, s, hfirst, hwhole⟩ :=
      run_append_of_continues machine (fun p hp => continues_wordAction_of_ok
        (hd p.1 (List.fst_mem_of_mem_zipIdx hp))) hsink haddr.exact
    refine ⟨hwritten, ⟨s, hfirst, hwhole⟩, fun failure => ?_⟩
    have hwhole : whole.result = second.result.map (s + ·) := hwhole
    rw [hwhole]
    cases second.result <;> simp [Except.map]
  · exact run_append_of_rejected machine habort hrejected hsink haddr.exact

/-- Four words fill the address space to its end. The second two start at their own address, with a
word that is rejected there; an empty piece after all four starts at address zero, and adds
nothing. -/
theorem run_append_last_addresses :
    let config : Config := { onInvalid := .mark, addresses := true, base := 0xFFFFFFF0 }
    let machine : Machine := { processors := 2 }
    let xs : List Word := [0x00000073, 0x00000073]
    let ys : List Word := [0x0000007F, 0x00000073]
    let whole := run config machine {} (xs ++ ys)
    let first := run config machine {} xs
    let second := run (config.advance xs.length) machine {} ys
    let last := run (config.advance (xs ++ ys).length) machine {} []
    Sink.NeverFails {} ∧ AddressesFit config (xs ++ ys).length ∧ config.onInvalid ≠ .abort ∧
    whole.written = first.written ++ second.written ∧
    whole.warnings = first.warnings ++ second.warnings ∧
    second.warnings = [.markingInvalid 0xFFFFFFF8 ⟨0x7F, 0x7F, .opcode⟩] ∧
    (∃ s t, first.result = .ok s ∧ second.result = .ok t ∧ whole.result = .ok (s + t)) ∧
    (config.advance (xs ++ ys).length).base = 0 ∧
    (run config machine {} (xs ++ ys ++ [])).written = whole.written ++ last.written := by
  intro config machine xs ys whole first second last
  have hsink := Sink.neverFails_default
  have haddr : AddressesFit config (xs ++ ys).length := .inr (by decide)
  have haddr' : AddressesFit config (xs ++ ys ++ []).length := .inr (by decide)
  have hpolicy : config.onInvalid ≠ .abort := by decide
  have hwarnings : second.warnings = [.markingInvalid 0xFFFFFFF8 ⟨0x7F, 0x7F, .opcode⟩] :=
    (run_parts machine hsink haddr.exact.append.2).2.1.trans (by decide)
  obtain ⟨hwritten, hboth, hcounts⟩ := (run_append config machine hsink haddr).1 hpolicy
  obtain ⟨hlast, -⟩ := (run_append config machine hsink haddr').1 hpolicy
  exact ⟨hsink, haddr, hpolicy, hwritten, hboth, hwarnings, hcounts, by decide, hlast⟩

end Listing

end RiscvListing
