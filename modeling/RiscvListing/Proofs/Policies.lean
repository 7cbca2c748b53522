import RiscvListing.Proofs.TextLines
import RiscvListing.Proofs.Utf8
import RiscvListing.Proofs.WordLines

/-!
# The policies for rejected words

Three runs over the same words differ only in what they make of the rejected ones.

* `Listing.isText_lineText`: a line has no line feed but the one at its end, so a listing can be cut
  into the lines of its words (`Listing.cutLines_bytesOf`).
* `Listing.warningAbout`, `Outcome.shownWarnings`: what a warning shows, its message and its values.
* `Listing.shownWarnings_of_mark`, `Listing.shownWarnings_of_skip`: one warning for each rejected
  word, in order, with the address as it wraps around.
* **The policies agree** (`Listing.policies_agree`): skipping is marking without the lines of the
  rejected words, both warn in the same way, and aborting stops short of both.
-/

namespace RiscvListing.Listing

/-! ## Cutting a listing -/

theorem isText_exactColumns (config : Config) (index : Nat) (w : Word) :
    IsText (exactColumns config index w) := by
  have hcolon : IsText ":\t" := by decide
  have htab : IsText "\t" := by decide
  unfold exactColumns
  split
  · have haddress := Numeral.isText_hexPadded 8 (config.base.toNat + 4 * index)
    have hword := Numeral.isText_hexPadded 8 w.toNat
    exact ((haddress.append hcolon).append hword).append htab
  · decide

theorem isText_lineText (config : Config) (p : Word × Nat) : IsText (lineText config p) :=
  (isText_exactColumns config p.2 p.1).append (isText_wordText config.registers p.1)

/-- No line has a line feed but the one at its end. -/
theorem lineFeed_not_mem_lineText (config : Config) (p : Word × Nat) :
    0x0A ∉ Utf8.encode (lineText config p).toList := by
  intro hmem
  have hchar := Utf8.mem_encode_of_ascii (by decide) hmem
  exact absurd (isText_lineText config p _ hchar) (by decide)

/-- Lines of words can be told apart. -/
theorem cutLines_bytesOf (config : Config) (ps : List (Word × Nat)) :
    cutLines (bytesOf (ps.map (indexedLine config))) =
      ps.map fun p => Utf8.encode (indexedLine config p).toList := by
  have hpieces : bytesOf (ps.map (indexedLine config)) =
      (ps.map fun p => Utf8.encode (lineText config p).toList).flatMap (· ++ [0x0A]) := by
    rw [bytesOf, List.flatMap_map, List.flatMap_map]
    exact List.flatMap_congr fun p _ => encode_indexedLine config p
  have hline : ∀ piece ∈ ps.map fun p => Utf8.encode (lineText config p).toList,
      0x0A ∉ piece := by
    intro piece hpiece
    obtain ⟨p, -, rfl⟩ := List.mem_map.mp hpiece
    exact lineFeed_not_mem_lineText config p
  rw [hpieces, cutLines_flatMap_append hline, List.map_map]
  exact List.map_congr_left fun p _ => (encode_indexedLine config p).symm

/-- The lines of all words can be told apart. -/
theorem cutLines_of_mark (config : Config) (words : List Word) :
    cutLines (bytesOf (words.zipIdx.map (indexedLine config))) =
      words.zipIdx.map fun p => Utf8.encode (indexedLine config p).toList :=
  cutLines_bytesOf config words.zipIdx

/-- The lines of some words are the lines of all words but those of the others. -/
theorem bytesOf_filter_eq (config : Config) (words : List Word) :
    bytesOf ((words.zipIdx.filter fun p => Word.decodes p.1).map (indexedLine config)) =
      (((cutLines (bytesOf (words.zipIdx.map (indexedLine config)))).zip words).filter
        fun l => Word.decodes l.2).flatMap (·.1) := by
  have hzip : (words.zipIdx.map fun p => Utf8.encode (indexedLine config p).toList).zip words =
      words.zipIdx.map fun p => (Utf8.encode (indexedLine config p).toList, p.1) := by
    calc _ = (words.zipIdx.map fun p => Utf8.encode (indexedLine config p).toList).zip
              (words.zipIdx.map Prod.fst) := by rw [List.zipIdx_map_fst]
      _ = _ := List.zip_map'
  rw [cutLines_of_mark, hzip, List.filter_map, List.flatMap_map, bytesOf, List.flatMap_map]
  rfl

/-! ## Warnings -/

/-- What a warning about the word at an index shows: a message, the address as it wraps around, and
the text of the word's line. -/
def warningAbout (config : Config) (message : String) (p : Word × Nat) :
    String × List (String × FieldValue) :=
  (message,
    [("addr", .quoted ("0x" ++ Numeral.hex ((config.base.toNat + 4 * p.2) % 2 ^ 32))),
      ("error", .plain (wordText config.registers p.1))])

theorem warningAbout_of_rejected {config : Config} {p : Word × Nat} {r : Rejection}
    (hr : decode p.1 = .error r) (message : String) :
    warningAbout config message p =
      (message, [("addr", .quoted ("0x" ++ Numeral.hex (address config p.2).toNat)),
        ("error", .plain r.message)]) := by
  unfold warningAbout wordText
  rw [toNat_address, hr]

/-- What the warnings of a listing show, in order. -/
def Outcome.shownWarnings (o : Outcome) : List (String × List (String × FieldValue)) :=
  o.warnings.map fun e => (e.message, e.fields)

section

variable {config : Config} {words : List Word} (machine : Machine) {sink : Sink}

/-- Where no word ends the listing, there is one warning for each rejected word, in order. What `f`
reads off a warning is then what `g` says about the word. -/
theorem map_warningsOf_reported {β : Type} {f : Event → β} {g : Word × Nat → β}
    (hpolicy : config.onInvalid ≠ .abort)
    (h : ∀ p ∈ words.zipIdx, (warningsOf (wordAction config p).events).map f =
      if !Word.decodes p.1 then [g p] else []) :
    (warningsOf (reported (wordActions config words))).map f =
      (words.zipIdx.filter fun p => !Word.decodes p.1).map g := by
  have hcontinues : ∀ p ∈ words.zipIdx, (wordAction config p).continues = true :=
    fun p _ => continues_wordAction hpolicy p
  calc (warningsOf (reported (wordActions config words))).map f
      = (warningsOf (words.zipIdx.flatMap fun p => (wordAction config p).events)).map f := by
        rw [(wordActions_spec hcontinues).2.1]
    _ = words.zipIdx.flatMap fun p => (warningsOf (wordAction config p).events).map f := by
        unfold warningsOf
        rw [List.filter_flatMap, List.map_flatMap]
    _ = (words.zipIdx.filter fun p => !Word.decodes p.1).flatMap fun p => [g p] := by
        rw [flatMap_filter]
        exact List.flatMap_congr h
    _ = (words.zipIdx.filter fun p => !Word.decodes p.1).map g :=
        List.flatMap_pure_eq_map _ _

/-- A listing that is not aborted shows the warnings about its words, one after the other. -/
theorem shownWarnings_run (hpolicy : config.onInvalid ≠ .abort) (hsink : sink.NeverFails)
    (haddr : AddressesExact config words.length) {message : String}
    (h : ∀ p ∈ words.zipIdx,
      (warningsOf (wordAction config p).events).map (fun e => (e.message, e.fields)) =
        if !Word.decodes p.1 then [warningAbout config message p] else []) :
    (run config machine sink words).shownWarnings =
      (words.zipIdx.filter fun p => !Word.decodes p.1).map (warningAbout config message) := by
  rw [Outcome.shownWarnings, warnings_run_of_neverFails config machine hsink haddr.fit]
  exact map_warningsOf_reported hpolicy h

/-- Marking warns about each rejected word, in order. -/
theorem shownWarnings_of_mark (hmark : config.onInvalid = .mark) (hsink : sink.NeverFails)
    (haddr : AddressesExact config words.length) :
    (run config machine sink words).shownWarnings =
      (words.zipIdx.filter fun p => !Word.decodes p.1).map
        (warningAbout config "invalid instruction") := by
  have hpolicy : config.onInvalid ≠ .abort := by rw [hmark]; decide
  refine shownWarnings_run machine hpolicy hsink haddr fun p hp => ?_
  rcases hd : Word.decodes p.1 with _ | _
  · obtain ⟨r, hr⟩ := Word.exists_rejection hd
    rw [wordAction_of_mark hmark haddr hp hr, warningAbout_of_rejected hr]
    rfl
  · rw [wordAction_of_ok haddr hp hd]
    rfl

/-- Skipping warns about each rejected word, in order. -/
theorem shownWarnings_of_skip (hskip : config.onInvalid = .skip) (hsink : sink.NeverFails)
    (haddr : AddressesExact config words.length) :
    (run config machine sink words).shownWarnings =
      (words.zipIdx.filter fun p => !Word.decodes p.1).map
        (warningAbout config "skipping invalid instruction") := by
  have hpolicy : config.onInvalid ≠ .abort := by rw [hskip]; decide
  refine shownWarnings_run machine hpolicy hsink haddr fun p hp => ?_
  rcases hd : Word.decodes p.1 with _ | _
  · obtain ⟨r, hr⟩ := Word.exists_rejection hd
    rw [wordAction_of_skip hskip hr, warningAbout_of_rejected hr]
    rfl
  · rw [wordAction_of_ok haddr hp hd]
    rfl

end

/-! ## Aborting -/

theorem bytesOf_append (xs ys : List String) : bytesOf (xs ++ ys) = bytesOf xs ++ bytesOf ys :=
  List.flatMap_append

section

variable {config : Config} {words : List Word}

/-- Aborting writes the lines of the first words, as many as are instructions, and warns about
nothing. -/
theorem exists_before_of_abort (machine : Machine) {sink : Sink}
    (habort : config.onInvalid = .abort) (hsink : sink.NeverFails)
    (haddr : AddressesExact config words.length) :
    ∃ before after, words = before ++ after ∧ (∀ w ∈ before, Word.decodes w = true) ∧
      ((∀ w ∈ words, Word.decodes w = true) → after = []) ∧
      (run config machine sink words).written =
        bytesOf (before.zipIdx.map (indexedLine config)) ∧
      (run config machine sink words).shownWarnings = [] := by
  rw [Outcome.shownWarnings, warnings_run_of_neverFails config machine hsink haddr.fit,
    run_of_neverFails config machine hsink haddr.fit]
  by_cases hd : ∀ w ∈ words, Word.decodes w = true
  · obtain ⟨hbytes, hreported, -⟩ := lineBytes_of_decodes hd haddr
    rw [hreported]
    exact ⟨words, [], (List.append_nil words).symm, hd, fun _ => rfl, hbytes, rfl⟩
  · obtain ⟨before, w, after, r, rfl, hbefore, hr⟩ := exists_first_rejected hd
    obtain ⟨hbytes, hreported, -⟩ := wordActions_of_abort habort haddr hbefore hr
    rw [hreported]
    exact ⟨before, w :: after, rfl, hbefore, fun h => absurd h hd, hbytes, rfl⟩

end

/-- The lines of the first words come first. -/
theorem bytesOf_isPrefix (config : Config) (before after : List Word) :
    bytesOf (before.zipIdx.map (indexedLine config)) <+:
      bytesOf ((before ++ after).zipIdx.map (indexedLine config)) := by
  rw [List.zipIdx_append, List.map_append, bytesOf_append]
  exact List.prefix_append _ _

/-- Instructions are not filtered out. -/
theorem filter_zipIdx_of_decodes {words : List Word} (h : ∀ w ∈ words, Word.decodes w = true) :
    (words.zipIdx.filter fun p => Word.decodes p.1) = words.zipIdx :=
  List.filter_eq_self.mpr fun p hp => h p.1 (List.fst_mem_of_mem_zipIdx hp)

/-- What is left after the rejected words are filtered out are the instructions, in order. -/
theorem map_fst_filter_zipIdx (words : List Word) :
    (words.zipIdx.filter fun p => Word.decodes p.1).map Prod.fst = words.filter Word.decodes := by
  conv_rhs => rw [← List.zipIdx_map_fst 0 words, List.filter_map]
  rfl

/-- The lines of the first words also come first if the others are filtered. -/
theorem bytesOf_isPrefix_filter (config : Config) {before : List Word}
    (h : ∀ w ∈ before, Word.decodes w = true) (after : List Word) :
    bytesOf (before.zipIdx.map (indexedLine config)) <+:
      bytesOf (((before ++ after).zipIdx.filter fun p => Word.decodes p.1).map
        (indexedLine config)) := by
  rw [List.zipIdx_append, List.filter_append, filter_zipIdx_of_decodes h, List.map_append,
    bytesOf_append]
  exact List.prefix_append _ _

/-! ## The policies together -/

/-- **The three policies agree**, on a sink that never fails. Skipping writes the lines of the
marked listing but those of the rejected words, and counts the same. Both warn once about each
rejected word, in order, with its address as it wraps around, shown or not, and with the text that
marking writes in its line; only the messages differ. Aborting does not warn and writes a first part
of either listing, and all of it if no word is rejected. -/
theorem policies_agree (config : Config) (machine : Machine) {sink : Sink}
    (hsink : sink.NeverFails) {words : List Word} (haddr : AddressesExact config words.length) :
    let mark := run { config with onInvalid := .mark } machine sink words
    let skip := run { config with onInvalid := .skip } machine sink words
    let abort := run { config with onInvalid := .abort } machine sink words
    let rejected := words.zipIdx.filter fun p => !Word.decodes p.1
    (cutLines mark.written).flatten = mark.written ∧
    cutLines mark.written =
      words.zipIdx.map (fun p => Utf8.encode
        (exactColumns config p.2 p.1 ++ wordText config.registers p.1 ++ "\n").toList) ∧
    skip.written =
      (((cutLines mark.written).zip words).filter fun l => Word.decodes l.2).flatMap (·.1) ∧
    (∃ stats, mark.result = .ok stats ∧ skip.result = .ok stats) ∧
    mark.shownWarnings = rejected.map (warningAbout config "invalid instruction") ∧
    skip.shownWarnings = rejected.map (warningAbout config "skipping invalid instruction") ∧
    abort.shownWarnings = [] ∧
    abort.written <+: skip.written ∧ abort.written <+: mark.written ∧
    ((∀ w ∈ words, Word.decodes w = true) →
      abort.written = skip.written ∧ abort.written = mark.written) := by
  intro mark skip abort rejected
  have hmark : AddressesExact { config with onInvalid := .mark } words.length := haddr
  have hskip : AddressesExact { config with onInvalid := .skip } words.length := haddr
  have habort : AddressesExact { config with onInvalid := .abort } words.length := haddr
  have hmarked : mark.written = bytesOf (words.zipIdx.map (indexedLine config)) :=
    written_of_mark machine rfl hsink hmark
  have hskipped : skip.written =
      bytesOf ((words.zipIdx.filter fun p => Word.decodes p.1).map (indexedLine config)) :=
    written_of_skip machine rfl hsink hskip
  obtain ⟨before, after, hwords, hbefore, hall, hwritten, hwarnings⟩ :=
    exists_before_of_abort machine rfl hsink habort
  have haborted : abort.written = bytesOf (before.zipIdx.map (indexedLine config)) := hwritten
  refine ⟨?_, ?_, ?_, ?_, ?_, ?_, hwarnings, ?_, ?_, ?_⟩
  · rw [hmarked, cutLines_of_mark, bytesOf, List.flatMap_map]
    rfl
  · rw [hmarked, cutLines_of_mark]
    exact List.map_congr_left fun p _ => by rw [indexedLine_eq, lineText]
  · rw [hskipped, hmarked]
    exact bytesOf_filter_eq config words
  · have hmarks : InvalidPolicy.mark ≠ .abort := by decide
    have hskips : InvalidPolicy.skip ≠ .abort := by decide
    exact ⟨_, result_of_not_abort machine hmarks hsink hmark,
      result_of_not_abort machine hskips hsink hskip⟩
  · exact shownWarnings_of_mark machine rfl hsink hmark
  · exact shownWarnings_of_skip machine rfl hsink hskip
  · rw [haborted, hskipped, hwords]
    exact bytesOf_isPrefix_filter config hbefore after
  · rw [haborted, hmarked, hwords]
    exact bytesOf_isPrefix config before after
  · intro hd
    obtain rfl : words = before := by rw [hwords, hall hd, List.append_nil]
    rw [haborted, hskipped, hmarked, filter_zipIdx_of_decodes hd]
    exact ⟨rfl, rfl⟩

/-- From the last address on, without addresses: skipping leaves the two rejected words out and
warns about both, the second one at an address that has wrapped around. -/
theorem policies_agree_wrapping :
    let config : Config := { base := 0xFFFFFFFC }
    let words : List Word := [0x0000007F, 0x00000073, 0xFFFFFFFF]
    let skip := run { config with onInvalid := .skip } { processors := 2 } {} words
    Sink.NeverFails {} ∧ AddressesExact config words.length ∧
    skip.shownWarnings =
      [("skipping invalid instruction",
        [("addr", .quoted "0xfffffffc"),
          ("error", .plain
            "Invalid Instruction: 0x0000007f (opcode 0x7f, unmatched opcode)")]),
       ("skipping invalid instruction",
        [("addr", .quoted "0x4"),
          ("error", .plain
            "Invalid Instruction: 0xffffffff (opcode 0x7f, unmatched opcode)")])] := by
  intro config words skip
  have hsink : Sink.NeverFails {} := ⟨by decide, rfl, rfl⟩
  have haddr : AddressesExact config words.length := nofun
  refine ⟨hsink, haddr, ?_⟩
  obtain ⟨-, -, -, -, -, hskip, -⟩ := policies_agree config { processors := 2 } hsink haddr
  rw [hskip]
  decide

end RiscvListing.Listing
