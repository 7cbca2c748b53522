import RiscvListing.Proofs.Addresses
import RiscvListing.Proofs.DecodeCommand

/-!
# The columns of a listing can be read back

A listing with addresses shows each word in hexadecimal, at a fixed place of its line. The reader of
hexadecimal input understands that column.

* `Listing.HasColumns`: a line that starts with the columns of an address and a word. The line of
  every word does, whether it is an instruction or not (`Listing.hasColumns_indexedLine`).
* `Listing.wordColumn`: the texts of the second column. They spell the words that have a line
  (`Listing.map_parse?_wordColumn`).
* `read_onePerLine_of_parse?`: texts that spell words, on lines of their own, are read as these words.
* **Columns read back** (`Listing.columns_read_back`): the column of a marked listing, read as
  hexadecimal input, gives the listing again.
-/

namespace RiscvListing

open HexWord (Spelling)
open Usage (spelled)

/-! ## Texts that spell words -/

/-- Texts that are read as words are spellings of them. -/
theorem exists_spellings_of_parse? {texts : List (List Char)} {words : List Word}
    (h : texts.map HexWord.parse? = words.map some) :
    ∃ ss : List Spelling, spelled ss = texts.map String.ofList ∧ ss.map Spelling.word = words := by
  induction texts generalizing words with
  | nil =>
      have hwords : words = [] := List.map_eq_nil_iff.mp h.symm
      exact ⟨[], rfl, hwords.symm⟩
  | cons text texts ih =>
      cases words with
      | nil => simp at h
      | cons w words =>
          obtain ⟨hw, hwords⟩ := List.cons.inj h
          obtain ⟨s, hs, hword⟩ := HexWord.exists_spelling_of_parse? hw
          obtain ⟨ss, htexts, hss⟩ := ih hwords
          refine ⟨s :: ss, ?_, ?_⟩
          · rw [spelled, List.map_cons, hs, List.map_cons, ← htexts, spelled]
          · rw [List.map_cons, hword, hss]

/-- Texts that spell words are read as these words, also if there are none. -/
theorem read_onePerLine_of_parse? {texts : List (List Char)} {words : List Word}
    (h : texts.map HexWord.parse? = words.map some) (lineEnd : LineEnd) (closed : Bool) :
    Program.read (onePerLine lineEnd closed (texts.map String.ofList)) .hex = .ok words := by
  obtain ⟨ss, htexts, rfl⟩ := exists_spellings_of_parse? h
  rw [← htexts]
  by_cases hne : ss = []
  · subst hne
    cases lineEnd <;> cases closed <;> decide
  · exact read_onePerLine lineEnd closed hne

namespace Listing

/-! ## The columns of a line -/

/-- A text that starts with an address in eight characters, a colon, a tab, a word in eight
characters and another tab. -/
structure HasColumns (text : List Char) (address : Nat) (w : Word) : Prop where
  /-- The first column is the address. -/
  address : (HexWord.parse? (text.take 8)).map BitVec.toNat = some address
  /-- A colon ends it. -/
  colon : text[8]? = some ':'
  /-- A tab comes before the word. -/
  tab : text[9]? = some '\t'
  /-- The second column is the word. -/
  word : HexWord.parse? ((text.drop 10).take 8) = some w
  /-- Another tab comes after it. -/
  second_tab : text[18]? = some '\t'

section

variable {config : Config}

theorem exists_columns (hshown : config.addresses = true) (p : Word × Nat) :
    ∃ rest, (indexedLine config p).toList =
      (Numeral.hexPadded 8 (exactAddress config p)).toList ++
        ':' :: '\t' :: ((Numeral.hexPadded 8 p.1.toNat).toList ++ '\t' :: rest) := by
  refine ⟨(wordText config.registers p.1 ++ "\n").toList, ?_⟩
  rw [indexedLine_eq, lineText, exactColumns, if_pos hshown, exactAddress]
  simp

/-- The line of a word starts with its address and the word itself. -/
theorem hasColumns_indexedLine (hshown : config.addresses = true) {p : Word × Nat}
    (hlt : exactAddress config p < 2 ^ 32) :
    HasColumns (indexedLine config p).toList (exactAddress config p) p.1 := by
  obtain ⟨rest, hline⟩ := exists_columns hshown p
  have hvalue : (BitVec.ofNat 32 (exactAddress config p)).toNat = exactAddress config p :=
    Nat.mod_eq_of_lt hlt
  have haddress := HexWord.parse?_hexPadded (BitVec.ofNat 32 (exactAddress config p))
  have hword := HexWord.parse?_hexPadded p.1
  have hlen := Numeral.length_hexPadded (by decide : 0 < 8) hlt
  have hlen' := Numeral.length_hexPadded (by decide : 0 < 8) p.1.isLt
  rw [hvalue] at haddress
  rw [hline]
  generalize (Numeral.hexPadded 8 (exactAddress config p)).toList = first at haddress hlen ⊢
  generalize (Numeral.hexPadded 8 p.1.toNat).toList = second at hword hlen' ⊢
  constructor
  · rw [List.take_left' hlen, haddress, Option.map_some, hvalue]
  · simp [hlen]
  · simp [List.getElem?_append, hlen]
  · have hfront : first ++ ':' :: '\t' :: (second ++ '\t' :: rest) =
        (first ++ [':', '\t']) ++ (second ++ '\t' :: rest) := by simp
    rw [hfront, List.drop_left' (by simp [hlen]), List.take_left' hlen', hword]
  · simp [List.getElem?_append, hlen, hlen']

/-! ## The column of words -/

/-- The texts in the second column of a listing. -/
def wordColumn (bytes : List UInt8) : List (List Char) :=
  (cutLines bytes).map fun l => ((Utf8.decode l).drop 10).take 8

/-- The lines of words, as text. -/
theorem map_decode_cutLines (ps : List (Word × Nat)) :
    (cutLines (bytesOf (ps.map (indexedLine config)))).map Utf8.decode =
      ps.map fun p => (indexedLine config p).toList := by
  rw [cutLines_bytesOf, List.map_map]
  apply List.map_congr_left
  intro p _
  have hdecode := Utf8.decode_encode_append (indexedLine config p).toList []
  rw [List.append_nil] at hdecode
  exact hdecode.trans (List.append_nil _)

/-- The line at an index has the columns of the word there. -/
theorem exists_line_hasColumns (hshown : config.addresses = true) {words : List Word}
    (hlt : ∀ p ∈ words.zipIdx, exactAddress config p < 2 ^ 32) {i : Nat} {w : Word}
    (hw : words[i]? = some w) :
    ∃ l, (cutLines (bytesOf (words.zipIdx.map (indexedLine config))))[i]? = some l ∧
      HasColumns (Utf8.decode l) (exactAddress config (w, i)) w := by
  have hline : (words.zipIdx.map fun p => (indexedLine config p).toList)[i]? =
      some (indexedLine config (w, i)).toList := by
    simp [hw]
  rw [← map_decode_cutLines, List.getElem?_map] at hline
  obtain ⟨l, hl, htext⟩ := Option.map_eq_some_iff.mp hline
  have hmem : (w, i) ∈ words.zipIdx := List.mk_mem_zipIdx_iff_getElem?.mpr hw
  refine ⟨l, hl, ?_⟩
  rw [htext]
  exact hasColumns_indexedLine hshown (hlt _ hmem)

/-- The second column spells the words that have a line. -/
theorem map_parse?_wordColumn (hshown : config.addresses = true) {ps : List (Word × Nat)}
    (hlt : ∀ p ∈ ps, exactAddress config p < 2 ^ 32) :
    (wordColumn (bytesOf (ps.map (indexedLine config)))).map HexWord.parse? =
      (ps.map Prod.fst).map some := by
  have hcolumn : wordColumn (bytesOf (ps.map (indexedLine config))) =
      ((cutLines (bytesOf (ps.map (indexedLine config)))).map Utf8.decode).map
        fun l => (l.drop 10).take 8 := by
    rw [wordColumn, List.map_map]
    rfl
  rw [hcolumn, map_decode_cutLines, List.map_map, List.map_map, List.map_map]
  apply List.map_congr_left
  intro p hp
  exact (hasColumns_indexedLine hshown (hlt p hp)).word

end

/-! ## Whole listings -/

section

variable (config : Config) (machine : Machine) (sink : Sink) {words : List Word}

/-- The encoding of the input has no influence on the listing of words. -/
theorem run_setInputFormat (format : InputFormat) :
    run { config with inputFormat := format } machine sink words = run config machine sink words :=
  rfl

/-- Input that is read as words is listed as these words. -/
theorem list_bytes_of_read {bytes : List UInt8} (h : Program.read bytes .hex = .ok words) :
    ((Source.bytes bytes).list { config with inputFormat := .hex } machine sink).result =
        (run config machine sink words).result ∧
      ((Source.bytes bytes).list { config with inputFormat := .hex } machine sink).written =
        (run config machine sink words).written := by
  simp only [Source.list, Source.read, h, run_setInputFormat, and_self]

end

/-- **Columns read back.** The listing shows addresses, and these pass the check. If rejected words
are marked, there is a line for every word, which starts with its exact address and the word; and
the column of words, one on each line, is read as hexadecimal input and gives the same counts and
the same listing. If rejected words are skipped, the column has the instructions, in order. -/
theorem columns_read_back (config : Config) (machine : Machine) {sink : Sink}
    (hsink : sink.NeverFails) {words : List Word} (hshown : config.addresses = true)
    (hfits : fits config words.length = true) :
    let outcome := run config machine sink words
    let file := fun lineEnd closed =>
      onePerLine lineEnd closed ((wordColumn outcome.written).map String.ofList)
    (config.onInvalid = .mark →
      (cutLines outcome.written).length = words.length ∧
      (∀ i w, words[i]? = some w → ∃ l, (cutLines outcome.written)[i]? = some l ∧
        HasColumns (Utf8.decode l) (config.base.toNat + 4 * i) w) ∧
      ∀ lineEnd closed,
        let again := (Source.bytes (file lineEnd closed)).list
          { config with inputFormat := .hex } machine sink
        (∃ stats, outcome.result = .ok stats ∧ again.result = .ok stats) ∧
          again.written = outcome.written) ∧
    (config.onInvalid = .skip →
      (wordColumn outcome.written).map HexWord.parse? = (words.filter Word.decodes).map some ∧
      ∀ lineEnd closed,
        Program.read (file lineEnd closed) .hex = .ok (words.filter Word.decodes)) := by
  have haddr : AddressesExact config words.length := AddressesFit.exact (.inr hfits)
  have hlt : ∀ p ∈ words.zipIdx, exactAddress config p < 2 ^ 32 := fun p hp =>
    haddr hshown p.2 (List.snd_lt_of_mem_zipIdx hp)
  intro outcome file
  constructor
  · intro hmark
    have hpolicy : config.onInvalid ≠ .abort := by simp [hmark]
    have hwritten : outcome.written = bytesOf (words.zipIdx.map (indexedLine config)) :=
      written_of_mark machine hmark hsink haddr
    have hcolumn := map_parse?_wordColumn hshown hlt
    rw [← hwritten, List.zipIdx_map_fst] at hcolumn
    refine ⟨?_, ?_, ?_⟩
    · rw [hwritten, cutLines_bytesOf, List.length_map, List.length_zipIdx]
    · intro i w hw
      rw [hwritten]
      exact exists_line_hasColumns hshown hlt hw
    · intro lineEnd closed again
      obtain ⟨hresult, hagain⟩ := list_bytes_of_read config machine sink
        (read_onePerLine_of_parse? hcolumn lineEnd closed)
      have hok := result_of_not_abort machine hpolicy hsink haddr
      exact ⟨⟨_, hok, hresult.trans hok⟩, hagain⟩
  · intro hskip
    have hwritten : outcome.written =
        bytesOf ((words.zipIdx.filter fun p => Word.decodes p.1).map (indexedLine config)) :=
      written_of_skip machine hskip hsink haddr
    have hlt' : ∀ p ∈ words.zipIdx.filter fun p => Word.decodes p.1,
        exactAddress config p < 2 ^ 32 := fun p hp => hlt p (List.mem_of_mem_filter hp)
    have hcolumn := map_parse?_wordColumn hshown hlt'
    rw [← hwritten, map_fst_filter_zipIdx] at hcolumn
    exact ⟨hcolumn, read_onePerLine_of_parse? hcolumn⟩

/-- Two words, of which the first is marked, with the last two addresses; the column is written with
carriage returns and without a line end after the last word. -/
theorem columns_read_back_last_words :
    let config : Config := { addresses := true, base := 0xFFFFFFF8 }
    let words : List Word := [0x0000007F, 0x00000073]
    let outcome := run config { processors := 2 } {} words
    let file := onePerLine .returnLineFeed false ((wordColumn outcome.written).map String.ofList)
    Sink.NeverFails {} ∧ fits config words.length = true ∧
      ((Source.bytes file).list { config with inputFormat := .hex } { processors := 2 } {}).written =
        outcome.written := by
  intro config words outcome file
  have hfits : fits config words.length = true := by decide
  obtain ⟨hmark, -⟩ :=
    columns_read_back config { processors := 2 } Sink.neverFails_default rfl hfits
  exact ⟨Sink.neverFails_default, hfits, ((hmark rfl).2.2 .returnLineFeed false).2⟩

end Listing

end RiscvListing
