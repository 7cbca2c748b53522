import RiscvListing.Proofs.Addresses

/-!
# Every record is one line of plain text

Whoever reads a listing splits it at the line feeds. That works because no record has a line feed
inside, whatever its mnemonic, registers and numbers are.

* `isPlain`, `IsPlainLine`: printable ASCII and tabs; one line of them, with its line feed.
* `IsText.isPlainLine`: the characters of records and messages are plain, so each of them is a line
  (`Instruction.isPlainLine_record`, `Rejection.isPlainLine_message`).
* `Utf8.lt_of_mem_encode`: plain lines are written as ASCII bytes.
* `Listing.length_shownWords`: a listing that succeeds has a line for every word, or for every
  instruction if rejected words are skipped.
* **One line each** (`every_record_is_one_plain_line`).
-/

namespace RiscvListing

/-! ## Plain text -/

/-- The printable ASCII characters, the space among them, and the tab. -/
def isPlain (c : Char) : Bool := c == '\t' || (0x20 ≤ c.toNat && c.toNat ≤ 0x7E)

/-- One line of plain characters, with the line feed at its end and no other. -/
def IsPlainLine (text : List Char) : Prop :=
  ∃ body, text = body ++ ['\n'] ∧ ∀ c ∈ body, isPlain c = true

/-- Letters and digits are plain. -/
theorem isPlain_of_isAlphanum {c : Char} (h : c.isAlphanum = true) : isPlain c = true := by
  simp only [Char.isAlphanum, Char.isAlpha, Char.isUpper, Char.isLower, Char.isDigit,
    Bool.or_eq_true, Bool.and_eq_true, decide_eq_true_eq, UInt32.le_iff_toNat_le, ge_iff_le] at h
  simp at h
  simp [isPlain]
  omega

/-- The characters of names, numerals and separators are plain. -/
theorem isPlain_of_isTextChar {c : Char} (h : isTextChar c = true) : isPlain c = true := by
  simp only [isTextChar, isNameChar, Bool.or_eq_true, beq_iff_eq, List.contains_eq_mem,
    decide_eq_true_eq] at h
  rcases h with ((halnum | rfl) | rfl) | hsep
  · exact isPlain_of_isAlphanum halnum
  · decide
  · decide
  · have hplain : "\t ,():".toList.all isPlain = true := by decide
    exact List.all_eq_true.mp hplain c hsep

/-- A text with a line feed after it is a line. -/
theorem IsText.isPlainLine {text : String} (h : IsText text) :
    IsPlainLine (text ++ "\n").toList := by
  refine ⟨text.toList, String.toList_append, ?_⟩
  intro c hc
  exact isPlain_of_isTextChar (h c hc)

/-- Every record is a line, also one that was made by hand. -/
theorem Instruction.isPlainLine_record (i : Instruction) (names : RegisterNames) :
    IsPlainLine (i.record names).toList :=
  (i.isText_text names).isPlainLine

/-- Every message about a rejected word is a line. -/
theorem Rejection.isPlainLine_message (r : Rejection) : IsPlainLine (r.message ++ "\n").toList :=
  r.isText_message.isPlainLine

/-! ## Bytes -/

/-- The characters of a line are ASCII. -/
theorem IsPlainLine.lt_of_mem {text : List Char} (h : IsPlainLine text) {c : Char} (hc : c ∈ text) :
    c.toNat < 0x80 := by
  obtain ⟨body, rfl, hplain⟩ := h
  rcases List.mem_append.mp hc with hc | hc
  · have hbody := hplain c hc
    simp [isPlain] at hbody
    rcases hbody with rfl | hrange
    · decide
    · omega
  · rw [List.mem_singleton.mp hc]
    decide

/-- ASCII characters are written as ASCII bytes. -/
theorem Utf8.lt_of_mem_encode {text : List Char} (h : ∀ c ∈ text, c.toNat < 0x80) {b : UInt8}
    (hb : b ∈ encode text) : b < 0x80 := by
  obtain ⟨c, hc, hmem⟩ := List.mem_flatMap.mp hb
  have hascii : c.val.toNat ≤ 0x7F := Nat.le_of_lt_succ (h c hc)
  unfold String.utf8EncodeChar at hmem
  dsimp only at hmem
  rw [if_pos hascii, List.mem_singleton] at hmem
  rw [hmem, UInt8.lt_iff_toNat_lt, UInt8.toNat_ofNat']
  exact lt_of_le_of_lt (Nat.mod_le _ _) (Nat.lt_succ_of_le hascii)

namespace Listing

/-! ## The lines of a listing -/

theorem isPlainLine_indexedLine (config : Config) (p : Word × Nat) :
    IsPlainLine (indexedLine config p).toList := by
  rw [indexedLine_eq]
  exact (isText_lineText config p).isPlainLine

section

variable {config : Config} {machine : Machine} {sink : Sink} {words : List Word} {stats : Stats}

/-- A listing that succeeds has passed the check of its addresses. -/
theorem addressesExact_of_ok (h : (run config machine sink words).result = .ok stats) :
    AddressesExact config words.length := by
  by_contra hnot
  rw [run_eq_failed config machine sink fun hfit => hnot hfit.exact] at h
  exact nomatch h

/-- What a listing that succeeds has written and counted. -/
theorem run_of_ok (hsink : sink.NeverFails)
    (h : (run config machine sink words).result = .ok stats) :
    (run config machine sink words).written =
        bytesOf ((shownWords config words).map (indexedLine config)) ∧
      ending (wordActions config words) = .ok () ∧
      stats = ⟨words.length, words.countP Word.decodes,
        words.length - words.countP Word.decodes⟩ := by
  have haddr := addressesExact_of_ok h
  rw [run_of_neverFails config machine hsink haddr.fit] at h ⊢
  dsimp only at h ⊢
  rcases hending : ending (wordActions config words) with failure | ⟨⟩
  · rw [hending] at h
    exact nomatch h
  · rw [hending] at h
    refine ⟨lineBytes_eq_shownWords haddr, rfl, ?_⟩
    rw [← Stats.ofResults_decode]
    exact (Except.ok.inj h).symm

/-- A listing that is to be aborted at the first rejected word succeeds only if there is none. -/
theorem decodes_of_ending (habort : config.onInvalid = .abort)
    (haddr : AddressesExact config words.length)
    (h : ending (wordActions config words) = .ok ()) : ∀ w ∈ words, Word.decodes w = true := by
  by_contra hnot
  obtain ⟨before, w, after, r, rfl, hbefore, hr⟩ := exists_first_rejected hnot
  rw [(wordActions_of_abort habort haddr hbefore hr).2.2] at h
  exact nomatch h

/-- How many lines a listing that succeeds has. -/
theorem length_shownWords (hsink : sink.NeverFails)
    (h : (run config machine sink words).result = .ok stats) :
    (shownWords config words).length =
      if config.onInvalid = .skip then stats.decoded else stats.words := by
  obtain ⟨-, hending, rfl⟩ := run_of_ok hsink h
  unfold shownWords
  split
  · rename_i hmark
    simp [hmark]
  · rename_i hskip
    rw [if_pos hskip, ← List.length_map Prod.fst, map_fst_filter_zipIdx,
      List.countP_eq_length_filter]
  · rename_i habort
    have hall := decodes_of_ending habort (addressesExact_of_ok h) hending
    have htake : (words.zipIdx.takeWhile fun p => Word.decodes p.1) = words.zipIdx :=
      List.takeWhile_eq_self_iff.mpr fun p hp => hall p.1 (List.fst_mem_of_mem_zipIdx hp)
    simp [habort, htake]

end

end Listing

/-- **Every record is one line of plain text**, and so is every message about a rejected word, also
if it was made by hand. So a listing that succeeds is ASCII, and it falls at its line feeds into
such lines, with nothing after the last one: one for each instruction if rejected words are skipped,
and one for each word otherwise. -/
theorem every_record_is_one_plain_line :
    (∀ (i : Instruction) (names : RegisterNames), IsPlainLine (i.record names).toList) ∧
    (∀ r : Rejection, IsPlainLine (r.message ++ "\n").toList) ∧
    ∀ (config : Config) (machine : Machine) (sink : Sink) (words : List Word) (stats : Stats),
      sink.NeverFails → (Listing.run config machine sink words).result = .ok stats →
      let written := (Listing.run config machine sink words).written
      (∀ b ∈ written, b < 0x80) ∧
      (cutLines written).flatten = written ∧
      (∀ line ∈ cutLines written, ∃ text, line = Utf8.encode text ∧ IsPlainLine text) ∧
      (config.onInvalid = .mark ∨ config.onInvalid = .abort →
        (cutLines written).length = stats.words) ∧
      (config.onInvalid = .skip → (cutLines written).length = stats.decoded) := by
  refine ⟨Instruction.isPlainLine_record, Rejection.isPlainLine_message, ?_⟩
  intro config machine sink words stats hsink hok written
  have hwritten : written =
      Listing.bytesOf ((Listing.shownWords config words).map (Listing.indexedLine config)) :=
    (Listing.run_of_ok hsink hok).1
  have hlength := Listing.length_shownWords hsink hok
  rw [hwritten, Listing.cutLines_bytesOf]
  refine ⟨?_, ?_, ?_, ?_, ?_⟩
  · intro b hb
    rw [Listing.bytesOf, List.flatMap_map] at hb
    obtain ⟨p, -, hmem⟩ := List.mem_flatMap.mp hb
    have hline := Listing.isPlainLine_indexedLine config p
    exact Utf8.lt_of_mem_encode (fun c hc => hline.lt_of_mem hc) hmem
  · rw [Listing.bytesOf, List.flatMap_map, List.flatMap_def]
  · intro line hline
    obtain ⟨p, -, rfl⟩ := List.mem_map.mp hline
    exact ⟨_, rfl, Listing.isPlainLine_indexedLine config p⟩
  · intro hpolicy
    rw [List.length_map, hlength, if_neg]
    rcases hpolicy with hmark | habort
    · simp [hmark]
    · simp [habort]
  · intro hskip
    rw [List.length_map, hlength, if_pos hskip]

/-- The first of two words is rejected and left out: two words are counted, one of them as an
instruction, and there is one line. -/
theorem every_record_is_one_plain_line_skipping :
    let config : Config := { onInvalid := .skip, addresses := true, base := 0xFFFFFFF8 }
    let words : List Word := [0xFFFFFFFF, 0x00000073]
    let outcome := Listing.run config { processors := 2 } { chunk := some 3 } words
    Sink.NeverFails { chunk := some 3 } ∧ outcome.result = .ok ⟨2, 1, 1⟩ ∧
      (cutLines outcome.written).length = 1 := by
  intro config words outcome
  have hsink : Sink.NeverFails { chunk := some 3 } := ⟨by decide, rfl, rfl⟩
  have haddr : Listing.AddressesExact config words.length := fun _ => by decide
  have hok : outcome.result = .ok ⟨2, 1, 1⟩ :=
    Listing.result_of_not_abort { processors := 2 } (by decide) hsink haddr
  obtain ⟨-, -, hlisting⟩ := every_record_is_one_plain_line
  exact ⟨hsink, hok, (hlisting config { processors := 2 } _ words _ hsink hok).2.2.2.2 rfl⟩

end RiscvListing
