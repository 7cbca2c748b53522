import RiscvListing.Proofs.RecordText
import RiscvListing.Proofs.Utf8
import RiscvListing.Proofs.Writing

/-!
# The lines of a listing

A listing is made word by word, and what one word contributes does not depend on the others.

* `Word.decodes`: whether a word stands for an instruction.
* `Listing.wordLine`: the line of the word at an index, with its address as a number. A listing
  whose addresses do not wrap around (`Listing.AddressesExact`) shows exactly that address
  (`Listing.columns_eq_exactColumns`).
* `Action.bytes`, `Action.events`, `Action.continues`: what one action contributes. Actions of which
  none ends the listing come to their contributions, one after the other (`lineBytes_append`,
  `ending_append`, `reported_append`).
* **The three policies** (`Listing.run_meets_wordLines`): marking writes the lines of all words,
  skipping those of the instructions, and aborting those before the first rejected word.
-/

namespace RiscvListing

/-- Whether a word stands for an instruction. -/
def Word.decodes (w : Word) : Bool := (decode w).isOk

theorem Word.exists_instruction {w : Word} (h : Word.decodes w = true) :
    ∃ i, decode w = .ok i := by
  unfold Word.decodes at h
  rcases hw : decode w with r | i
  · rw [hw] at h
    exact nomatch h
  · exact ⟨i, rfl⟩

theorem Word.exists_rejection {w : Word} (h : Word.decodes w = false) :
    ∃ r, decode w = .error r := by
  unfold Word.decodes at h
  rcases hw : decode w with r | i
  · exact ⟨r, rfl⟩
  · rw [hw] at h
    exact nomatch h

/-- The counts of a list of words. -/
theorem Stats.ofResults_decode (words : List Word) :
    Stats.ofResults (words.map decode) =
      ⟨words.length, words.countP Word.decodes, words.length - words.countP Word.decodes⟩ := by
  have hwords : (Stats.ofResults (words.map decode)).words = words.length := List.length_map ..
  have hdecoded : (Stats.ofResults (words.map decode)).decoded = words.countP Word.decodes :=
    List.countP_map
  have hsum := Stats.decoded_add_invalid (words.map decode)
  have hinvalid : (Stats.ofResults (words.map decode)).invalid =
      words.length - words.countP Word.decodes := by omega
  rw [← hwords, ← hdecoded] at hinvalid ⊢
  rw [← hinvalid]

namespace Listing

/-! ## Lines with exact addresses -/

/-- The columns in front of the line of the word at an index, with the address as a number. -/
def exactColumns (config : Config) (index : Nat) (w : Word) : String :=
  if config.addresses then
    Numeral.hexPadded 8 (config.base.toNat + 4 * index) ++ ":\t" ++
      Numeral.hexPadded 8 w.toNat ++ "\t"
  else ""

/-- The line of the word at an index: its instruction, or the message about it. -/
def wordLine (config : Config) (index : Nat) (w : Word) : String :=
  exactColumns config index w ++
    match decode w with
    | .ok i => i.record config.registers
    | .error r => r.message ++ "\n"

/-- The addresses of so many words do not wrap around, or they are not shown. -/
def AddressesExact (config : Config) (count : Nat) : Prop :=
  config.addresses = true → ∀ i < count, config.base.toNat + 4 * i < 2 ^ 32

theorem toNat_address (config : Config) (index : Nat) :
    (address config index).toNat = (config.base.toNat + 4 * index) % 2 ^ 32 := by
  unfold address
  rw [BitVec.toNat_add, BitVec.toNat_mul, BitVec.toNat_ofNat]
  simp

/-- The check of the last address is a check of all addresses. -/
theorem AddressesExact.fit {config : Config} {count : Nat} (h : AddressesExact config count) :
    AddressesFit config count := by
  rcases hshown : config.addresses with _ | _
  · exact .inl hshown
  · refine .inr (decide_eq_true ?_)
    have hbase := config.base.isLt
    rcases count with _ | last
    · omega
    · have hlast := h hshown last (Nat.lt_succ_self last)
      omega

theorem AddressesFit.exact {config : Config} {count : Nat} (h : AddressesFit config count) :
    AddressesExact config count := by
  intro hshown i hi
  rcases h with hhidden | hfits
  · rw [hshown] at hhidden
    exact nomatch hhidden
  · have hlast : config.base.toNat + 4 * (count - 1) ≤ 0xFFFFFFFF := of_decide_eq_true hfits
    omega

/-- As long as addresses do not wrap around, the address column shows them exactly. -/
theorem columns_eq_exactColumns {config : Config} {count index : Nat}
    (haddr : AddressesExact config count) (hi : index < count) (w : Word) :
    columns config index w = exactColumns config index w := by
  unfold columns exactColumns
  split
  · rename_i hshown
    rw [toNat_address, Nat.mod_eq_of_lt (haddr hshown index hi)]
  · rfl

/-! ## What one action contributes -/

/-- The bytes that an action writes. -/
def Action.bytes : Action → List UInt8
  | .write _ line => Utf8.encode line.toList
  | .leaveOut _ | .stop _ => []

/-- The events of an action. -/
def Action.events : Action → List Event
  | .write event _ => event.toList
  | .leaveOut event => [event]
  | .stop _ => []

/-- Whether the listing goes on after an action. -/
def Action.continues : Action → Bool
  | .write .. | .leaveOut _ => true
  | .stop _ => false

variable {acts : List Action}

theorem lineBytes_append (h : ∀ a ∈ acts, a.continues = true) (rest : List Action) :
    lineBytes (acts ++ rest) = acts.flatMap Action.bytes ++ lineBytes rest := by
  induction acts with
  | nil => rfl
  | cons a acts ih =>
      have hrest := ih fun b hb => h b (List.mem_cons_of_mem a hb)
      rcases a with ⟨event, line⟩ | event | rejection
      · simp [lineBytes, Action.bytes, hrest]
      · simp [lineBytes, Action.bytes, hrest]
      · exact absurd (h _ List.mem_cons_self) Bool.false_ne_true

theorem ending_append (h : ∀ a ∈ acts, a.continues = true) (rest : List Action) :
    ending (acts ++ rest) = ending rest := by
  induction acts with
  | nil => rfl
  | cons a acts ih =>
      have hrest := ih fun b hb => h b (List.mem_cons_of_mem a hb)
      rcases a with ⟨event, line⟩ | event | rejection
      · exact hrest
      · exact hrest
      · exact absurd (h _ List.mem_cons_self) Bool.false_ne_true

theorem reported_append (h : ∀ a ∈ acts, a.continues = true) (rest : List Action) :
    reported (acts ++ rest) = acts.flatMap Action.events ++ reported rest := by
  induction acts with
  | nil => rfl
  | cons a acts ih =>
      have hrest := ih fun b hb => h b (List.mem_cons_of_mem a hb)
      rcases a with ⟨event, line⟩ | event | rejection
      · simp [reported, Action.events, hrest]
      · simp [reported, Action.events, hrest]
      · exact absurd (h _ List.mem_cons_self) Bool.false_ne_true

/-! ## What one word contributes -/

/-- What the policy makes of a word with its index. -/
def wordAction (config : Config) (p : Word × Nat) : Action := action config p.2 p.1 (decode p.1)

/-- The line of a word with its index. -/
def indexedLine (config : Config) (p : Word × Nat) : String := wordLine config p.2 p.1

/-- The line of a word with its index, without the line end. -/
def lineText (config : Config) (p : Word × Nat) : String :=
  exactColumns config p.2 p.1 ++ wordText config.registers p.1

theorem indexedLine_eq (config : Config) (p : Word × Nat) :
    indexedLine config p = lineText config p ++ "\n" := by
  unfold indexedLine wordLine lineText wordText
  rw [String.append_assoc]
  rcases decode p.1 with r | i <;> rfl

/-- The bytes of a line: its text and the line feed. -/
theorem encode_indexedLine (config : Config) (p : Word × Nat) :
    Utf8.encode (indexedLine config p).toList =
      Utf8.encode (lineText config p).toList ++ [0x0A] := by
  rw [indexedLine_eq, String.toList_append, Utf8.encode_append]
  rfl

/-- The actions for words are made one by one. -/
theorem wordActions_eq_map (config : Config) (words : List Word) :
    wordActions config words = words.zipIdx.map (wordAction config) := by
  unfold wordActions actions
  rw [← List.map_prod_left_eq_zip, List.zipIdx_map, List.map_map]
  rfl

section

variable {config : Config} {words : List Word} {p : Word × Nat}

/-- An instruction has its line under every policy. -/
theorem wordAction_of_ok (haddr : AddressesExact config words.length) (hp : p ∈ words.zipIdx)
    (h : Word.decodes p.1 = true) : wordAction config p = .write none (indexedLine config p) := by
  obtain ⟨i, hi⟩ := Word.exists_instruction h
  unfold wordAction indexedLine wordLine
  rw [hi, ← columns_eq_exactColumns haddr (List.snd_lt_of_mem_zipIdx hp)]
  rfl

/-- Marking a rejected word writes its line. -/
theorem wordAction_of_mark (hmark : config.onInvalid = .mark)
    (haddr : AddressesExact config words.length) (hp : p ∈ words.zipIdx) {r : Rejection}
    (hr : decode p.1 = .error r) :
    wordAction config p =
      .write (some (.markingInvalid (address config p.2) r)) (indexedLine config p) := by
  unfold wordAction indexedLine wordLine action
  rw [hr, ← columns_eq_exactColumns haddr (List.snd_lt_of_mem_zipIdx hp), ← String.append_assoc]
  simp only [hmark]

/-- Skipping a rejected word writes nothing. -/
theorem wordAction_of_skip (hskip : config.onInvalid = .skip) {r : Rejection}
    (hr : decode p.1 = .error r) :
    wordAction config p = .leaveOut (.skippingInvalid (address config p.2) r) := by
  unfold wordAction action
  simp only [hr, hskip]

/-- A rejected word ends the listing if the policy is to abort. -/
theorem wordAction_of_abort (habort : config.onInvalid = .abort) {r : Rejection}
    (hr : decode p.1 = .error r) : wordAction config p = .stop r := by
  unfold wordAction action
  simp only [hr, habort]

/-- Nothing ends the listing unless the policy is to abort. -/
theorem continues_wordAction (h : config.onInvalid ≠ .abort) (p : Word × Nat) :
    (wordAction config p).continues = true := by
  unfold wordAction action
  rcases decode p.1 with r | i
  · rcases hpolicy : config.onInvalid with _ | _ | _
    · exact absurd hpolicy h
    · rfl
    · rfl
  · rfl

/-- Instructions do not end the listing. -/
theorem continues_wordAction_of_ok (h : Word.decodes p.1 = true) :
    (wordAction config p).continues = true := by
  obtain ⟨i, hi⟩ := Word.exists_instruction h
  unfold wordAction
  rw [hi]
  rfl

end

/-! ## Whole listings -/

/-- The bytes of lines. -/
def bytesOf (lines : List String) : List UInt8 := lines.flatMap fun line => Utf8.encode line.toList

/-- Leaving elements out is the same as having them contribute nothing. -/
theorem flatMap_filter {α β : Type} (keep : α → Bool) (f : α → List β) (xs : List α) :
    (xs.filter keep).flatMap f = xs.flatMap fun x => if keep x then f x else [] := by
  induction xs with
  | nil => rfl
  | cons x xs ih => cases hx : keep x <;> simp [hx, ih]

variable {config : Config} {words : List Word}

theorem continues_of_mem_wordActions
    (h : ∀ p ∈ words.zipIdx, (wordAction config p).continues = true) :
    ∀ a ∈ wordActions config words, a.continues = true := by
  rw [wordActions_eq_map]
  intro a ha
  obtain ⟨p, hp, rfl⟩ := List.mem_map.mp ha
  exact h p hp

/-- Listings that are not aborted come to what their words contribute. -/
theorem wordActions_spec (h : ∀ p ∈ words.zipIdx, (wordAction config p).continues = true) :
    lineBytes (wordActions config words) =
        words.zipIdx.flatMap (fun p => (wordAction config p).bytes) ∧
      reported (wordActions config words) =
        words.zipIdx.flatMap (fun p => (wordAction config p).events) ∧
      ending (wordActions config words) = .ok () := by
  have hcontinues := continues_of_mem_wordActions h
  rw [wordActions_eq_map] at hcontinues ⊢
  have hbytes := lineBytes_append hcontinues []
  have hevents := reported_append hcontinues []
  have hending := ending_append hcontinues []
  rw [List.append_nil, List.flatMap_map] at hbytes hevents
  rw [List.append_nil] at hending
  exact ⟨hbytes.trans (List.append_nil _), hevents.trans (List.append_nil _), hending⟩

/-- Marking writes the lines of all words. -/
theorem lineBytes_of_mark (hmark : config.onInvalid = .mark)
    (haddr : AddressesExact config words.length) :
    lineBytes (wordActions config words) =
      bytesOf (words.zipIdx.map (indexedLine config)) := by
  have hpolicy : config.onInvalid ≠ .abort := by rw [hmark]; decide
  rw [(wordActions_spec fun p _ => continues_wordAction hpolicy p).1, bytesOf, List.flatMap_map]
  refine List.flatMap_congr fun p hp => ?_
  rcases hd : Word.decodes p.1 with _ | _
  · obtain ⟨r, hr⟩ := Word.exists_rejection hd
    rw [wordAction_of_mark hmark haddr hp hr]
    rfl
  · rw [wordAction_of_ok haddr hp hd]
    rfl

/-- Skipping writes the lines of the instructions, with the addresses that they have in the whole
list. -/
theorem lineBytes_of_skip (hskip : config.onInvalid = .skip)
    (haddr : AddressesExact config words.length) :
    lineBytes (wordActions config words) =
      bytesOf ((words.zipIdx.filter fun p => Word.decodes p.1).map (indexedLine config)) := by
  have hpolicy : config.onInvalid ≠ .abort := by rw [hskip]; decide
  rw [(wordActions_spec fun p _ => continues_wordAction hpolicy p).1, bytesOf, List.flatMap_map,
    flatMap_filter]
  refine List.flatMap_congr fun p hp => ?_
  rcases hd : Word.decodes p.1 with _ | _
  · obtain ⟨r, hr⟩ := Word.exists_rejection hd
    rw [wordAction_of_skip hskip hr]
    rfl
  · rw [wordAction_of_ok haddr hp hd]
    rfl

/-- The first rejected word of a list. -/
theorem exists_first_rejected {words : List Word} (h : ¬ ∀ w ∈ words, Word.decodes w = true) :
    ∃ before w after r, words = before ++ w :: after ∧ (∀ v ∈ before, Word.decodes v = true) ∧
      decode w = .error r := by
  have hsome : (words.find? fun w => !Word.decodes w).isSome := by
    simpa using h
  obtain ⟨w, hw⟩ := Option.isSome_iff_exists.mp hsome
  obtain ⟨hd, before, after, hwords, hbefore⟩ := List.find?_eq_some_iff_append.mp hw
  obtain ⟨r, hr⟩ := Word.exists_rejection (by simpa using hd)
  exact ⟨before, w, after, r, hwords, fun v hv => by simpa using hbefore v hv, hr⟩

/-- Aborting writes the lines before the first rejected word and ends with its rejection. -/
theorem wordActions_of_abort (habort : config.onInvalid = .abort) {before after : List Word}
    {w : Word} {r : Rejection} (haddr : AddressesExact config (before ++ w :: after).length)
    (hbefore : ∀ v ∈ before, Word.decodes v = true) (hr : decode w = .error r) :
    lineBytes (wordActions config (before ++ w :: after)) =
        bytesOf (before.zipIdx.map (indexedLine config)) ∧
      reported (wordActions config (before ++ w :: after)) = [] ∧
      ending (wordActions config (before ++ w :: after)) = .error (.rejected r) := by
  have hline : ∀ p ∈ before.zipIdx, wordAction config p = .write none (indexedLine config p) := by
    intro p hp
    refine wordAction_of_ok haddr ?_ (hbefore p.1 (List.fst_mem_of_mem_zipIdx hp))
    rw [List.zipIdx_append]
    exact List.mem_append_left _ hp
  have hcontinues : ∀ a ∈ before.zipIdx.map (wordAction config), a.continues = true := by
    intro a ha
    obtain ⟨p, hp, rfl⟩ := List.mem_map.mp ha
    rw [hline p hp]
    rfl
  have hstop : wordAction config (w, 0 + before.length) = .stop r := wordAction_of_abort habort hr
  rw [wordActions_eq_map, List.zipIdx_append, List.map_append, List.zipIdx_cons, List.map_cons,
    hstop, lineBytes_append hcontinues, reported_append hcontinues, ending_append hcontinues,
    List.flatMap_map, List.flatMap_map, bytesOf, List.flatMap_map]
  refine ⟨?_, ?_, rfl⟩
  · rw [lineBytes, List.append_nil]
    refine List.flatMap_congr fun p hp => ?_
    rw [hline p hp]
    rfl
  · rw [reported, List.append_nil]
    refine List.flatMap_eq_nil_iff.mpr fun p hp => ?_
    rw [hline p hp]
    rfl

/-- If all words are instructions, the policy does not matter. -/
theorem lineBytes_of_decodes (hd : ∀ w ∈ words, Word.decodes w = true)
    (haddr : AddressesExact config words.length) :
    lineBytes (wordActions config words) = bytesOf (words.zipIdx.map (indexedLine config)) ∧
      reported (wordActions config words) = [] ∧ ending (wordActions config words) = .ok () := by
  have hfst : ∀ p ∈ words.zipIdx, Word.decodes p.1 = true :=
    fun p hp => hd p.1 (List.fst_mem_of_mem_zipIdx hp)
  have hcontinues : ∀ p ∈ words.zipIdx, (wordAction config p).continues = true :=
    fun p hp => continues_wordAction_of_ok (hfst p hp)
  obtain ⟨hbytes, hevents, hending⟩ := wordActions_spec hcontinues
  refine ⟨?_, ?_, hending⟩
  · rw [hbytes, bytesOf, List.flatMap_map]
    refine List.flatMap_congr fun p hp => ?_
    rw [wordAction_of_ok haddr hp (hfst p hp)]
    rfl
  · rw [hevents]
    refine List.flatMap_eq_nil_iff.mpr fun p hp => ?_
    rw [wordAction_of_ok haddr hp (hfst p hp)]
    rfl

/-- Aborting writes the lines of the instructions before the first rejected word. -/
theorem lineBytes_of_abort (habort : config.onInvalid = .abort)
    (haddr : AddressesExact config words.length) :
    lineBytes (wordActions config words) =
        bytesOf ((words.zipIdx.takeWhile fun p => Word.decodes p.1).map (indexedLine config)) ∧
      reported (wordActions config words) = [] := by
  by_cases hd : ∀ w ∈ words, Word.decodes w = true
  · obtain ⟨hbytes, hreported, -⟩ := lineBytes_of_decodes hd haddr
    have hall : (words.zipIdx.takeWhile fun p => Word.decodes p.1) = words.zipIdx :=
      List.takeWhile_eq_self_iff.mpr fun p hp => hd p.1 (List.fst_mem_of_mem_zipIdx hp)
    rw [hall]
    exact ⟨hbytes, hreported⟩
  · obtain ⟨before, w, after, r, rfl, hbefore, hr⟩ := exists_first_rejected hd
    obtain ⟨hbytes, hreported, -⟩ := wordActions_of_abort habort haddr hbefore hr
    have hw : Word.decodes w = false := by
      unfold Word.decodes
      rw [hr]
      rfl
    have hfirst : ((before ++ w :: after).zipIdx.takeWhile fun p => Word.decodes p.1) =
        before.zipIdx := by
      rw [List.zipIdx_append, List.takeWhile_append_of_pos, List.zipIdx_cons,
        List.takeWhile_cons_of_neg (by simp [hw]), List.append_nil]
      exact fun p hp => hbefore p.1 (List.fst_mem_of_mem_zipIdx hp)
    rw [hfirst]
    exact ⟨hbytes, hreported⟩

section

variable (machine : Machine) {sink : Sink}

/-- What marking writes on a sink that never fails. -/
theorem written_of_mark (hmark : config.onInvalid = .mark) (hsink : sink.NeverFails)
    (haddr : AddressesExact config words.length) :
    (run config machine sink words).written = bytesOf (words.zipIdx.map (indexedLine config)) := by
  rw [run_of_neverFails config machine hsink haddr.fit]
  exact lineBytes_of_mark hmark haddr

/-- What skipping writes on a sink that never fails. -/
theorem written_of_skip (hskip : config.onInvalid = .skip) (hsink : sink.NeverFails)
    (haddr : AddressesExact config words.length) :
    (run config machine sink words).written =
      bytesOf ((words.zipIdx.filter fun p => Word.decodes p.1).map (indexedLine config)) := by
  rw [run_of_neverFails config machine hsink haddr.fit]
  exact lineBytes_of_skip hskip haddr

/-- Marking and skipping count the words. -/
theorem result_of_not_abort (hpolicy : config.onInvalid ≠ .abort) (hsink : sink.NeverFails)
    (haddr : AddressesExact config words.length) :
    (run config machine sink words).result =
      .ok ⟨words.length, words.countP Word.decodes,
        words.length - words.countP Word.decodes⟩ := by
  have hcontinues : ∀ p ∈ words.zipIdx, (wordAction config p).continues = true :=
    fun p _ => continues_wordAction hpolicy p
  rw [run_of_neverFails config machine hsink haddr.fit]
  dsimp only
  rw [(wordActions_spec hcontinues).2.2]
  exact congrArg Except.ok (Stats.ofResults_decode words)

end

/-- **A listing, word by word**, on a sink that never fails. Under each policy, the lines are those
of the words that the policy says, with the addresses that the words have in the whole list; marking
and skipping count all words, and aborting reports the first rejected one. -/
theorem run_meets_wordLines (config : Config) (machine : Machine) {sink : Sink}
    (hsink : sink.NeverFails) {words : List Word} (haddr : AddressesExact config words.length) :
    let outcome := run config machine sink words
    let counts : Stats :=
      ⟨words.length, words.countP Word.decodes, words.length - words.countP Word.decodes⟩
    (config.onInvalid = .mark →
      outcome.result = .ok counts ∧
        outcome.written = bytesOf (words.zipIdx.map (indexedLine config))) ∧
    (config.onInvalid = .skip →
      outcome.result = .ok counts ∧
        outcome.written =
          bytesOf ((words.zipIdx.filter fun p => Word.decodes p.1).map (indexedLine config))) ∧
    (config.onInvalid = .abort → (∀ w ∈ words, Word.decodes w = true) →
      let marked := run { config with onInvalid := .mark } machine sink words
      outcome.result = marked.result ∧ outcome.written = marked.written) ∧
    (config.onInvalid = .abort → (¬ ∀ w ∈ words, Word.decodes w = true) →
      ∃ k w r, words[k]? = some w ∧ decode w = .error r ∧
        (∀ j < k, ∀ v, words[j]? = some v → Word.decodes v = true) ∧
        outcome.result = .error (.rejected r) ∧
        outcome.written = bytesOf ((words.take k).zipIdx.map (indexedLine config))) := by
  dsimp only
  refine ⟨fun hmark => ?_, fun hskip => ?_, fun _ hd => ?_, fun habort hnot => ?_⟩
  · have hpolicy : config.onInvalid ≠ .abort := by rw [hmark]; decide
    exact ⟨result_of_not_abort machine hpolicy hsink haddr,
      written_of_mark machine hmark hsink haddr⟩
  · have hpolicy : config.onInvalid ≠ .abort := by rw [hskip]; decide
    exact ⟨result_of_not_abort machine hpolicy hsink haddr,
      written_of_skip machine hskip hsink haddr⟩
  · have hmarked : AddressesExact { config with onInvalid := .mark } words.length := haddr
    obtain ⟨hbytes, -, hending⟩ := lineBytes_of_decodes hd haddr
    obtain ⟨hbytes', -, hending'⟩ := lineBytes_of_decodes hd hmarked
    rw [run_of_neverFails config machine hsink haddr.fit,
      run_of_neverFails _ machine hsink hmarked.fit, hending, hending', hbytes, hbytes']
    exact ⟨rfl, rfl⟩
  · obtain ⟨before, w, after, r, rfl, hbefore, hr⟩ := exists_first_rejected hnot
    obtain ⟨hbytes, -, hending⟩ := wordActions_of_abort habort haddr hbefore hr
    rw [run_of_neverFails config machine hsink haddr.fit]
    refine ⟨before.length, w, r, by simp, hr, ?_, ?_, ?_⟩
    · intro j hj v hv
      rw [List.getElem?_append_left hj] at hv
      exact hbefore v (List.mem_of_getElem? hv)
    · rw [hending]
      rfl
    · rw [hbytes, List.take_left]

/-- The listing of three words from address `0x1000` is aborted at the second one, after the line of
the first. -/
theorem run_meets_wordLines_abort :
    let config : Config :=
      { onInvalid := .abort, addresses := true, base := 0x1000, registers := .abi }
    let sink : Sink := { chunk := some 3 }
    let words : List Word := [0x00A58533, 0x0000007F, 0x00000073]
    sink.NeverFails ∧ AddressesExact config words.length ∧
    (run config { processors := 2 } sink words).written =
      Utf8.encode "00001000:\t00a58533\tadd\ta0, a1, a0\n".toList := by
  intro config sink words
  have hsink : sink.NeverFails := ⟨by decide, rfl, rfl⟩
  have haddr : AddressesExact config words.length := by
    intro _ i hi
    have hbase : config.base.toNat = 0x1000 := rfl
    have hlength : words.length = 3 := rfl
    omega
  refine ⟨hsink, haddr, ?_⟩
  have hrejected : ¬ ∀ w ∈ words, Word.decodes w = true := fun h =>
    absurd (h 0x0000007F (List.mem_cons_of_mem _ List.mem_cons_self)) (by decide)
  obtain ⟨k, w, r, hw, hr, hbefore, -, hwritten⟩ :=
    (run_meets_wordLines config { processors := 2 } hsink haddr).2.2.2 rfl hrejected
  -- the second word is the first one that is rejected
  obtain rfl : k = 1 := by
    rcases k with _ | _ | k
    · obtain rfl : 0x00A58533#32 = w := Option.some.inj hw
      exact nomatch hr
    · rfl
    · exact absurd (hbefore 1 (by omega) 0x0000007F rfl) (by decide)
  rw [hwritten]
  decide

end Listing

end RiscvListing
