import RiscvListing.Proofs.FileReport
import RiscvListing.Proofs.Paths
import RiscvListing.Proofs.Policies
import RiscvListing.Proofs.Rendering

/-!
# Words as arguments and words in a file

Words can be given as arguments or in a file, and are listed in the same way.

* `onePerLine`: texts in a file, one on each line. If the texts spell words, the file is a rendering
  of these words (`exists_rendering_onePerLine`).
* `Outcome.wordWarnings`: the warnings about single words. They are those of the listing, whatever
  the command reports around it.
* `run_decode`, `run_disasm_hex`: what the two commands come to.
* **The commands agree** (`decode_agrees_with_hex_file`): they print the same bytes and warn about
  the same words; the exit code of the one tells whether all words are instructions, and that of the
  other does not.
-/

namespace RiscvListing

open Listing (AddressesExact bytesOf indexedLine warningAbout)
open Usage (abiArgument spelled)
open HexWord (Spelling)

/-! ## Texts in a file -/

/-- Texts in a file, one on each line; the last line may lack its end. -/
def onePerLine (lineEnd : LineEnd) (closed : Bool) (texts : List String) : List UInt8 :=
  (lineEnd.lead ++ [0x0A]).intercalate (texts.map fun text : String => Utf8.encode text.toList) ++
    if closed then lineEnd.lead ++ [0x0A] else []

/-- The line with a spelling and nothing else. -/
def lineOf (s : Spelling) : RenderedLine := ⟨⟨[], nofun, nofun⟩, some (s, ⟨[], nofun, nofun⟩), none⟩

theorem bytes_lineOf (s : Spelling) : (lineOf s).bytes = Utf8.encode s.text := by
  simp [lineOf, RenderedLine.bytes, RenderedLine.text]

/-- Spellings on lines of their own are a rendering of their words. -/
theorem exists_rendering_onePerLine (lineEnd : LineEnd) (closed : Bool) (s : Spelling)
    (ss : List Spelling) :
    ∃ r : Rendering, r.bytes = onePerLine lineEnd closed (spelled (s :: ss)) ∧
      r.words = (s :: ss).map Spelling.word := by
  induction ss generalizing s with
  | nil =>
      cases closed with
      | false =>
          refine ⟨⟨[], some (lineOf s)⟩, ?_, rfl⟩
          simp [Rendering.bytes, onePerLine, spelled, bytes_lineOf]
      | true =>
          refine ⟨⟨[(lineOf s, lineEnd)], none⟩, ?_, rfl⟩
          simp [Rendering.bytes, onePerLine, spelled, bytes_lineOf]
  | cons s' ss ih =>
      obtain ⟨r, hbytes, hwords⟩ := ih s'
      refine ⟨⟨(lineOf s, lineEnd) :: r.lines, r.last⟩, ?_, ?_⟩
      · have hcons : Rendering.bytes ⟨(lineOf s, lineEnd) :: r.lines, r.last⟩ =
            (lineOf s).bytes ++ (lineEnd.lead ++ [0x0A]) ++ r.bytes := by
          simp [Rendering.bytes]
        rw [hcons, hbytes, bytes_lineOf]
        simp [onePerLine, spelled, List.intercalate_cons_cons]
      · exact congrArg (s.word :: ·) hwords

/-- **Spellings on lines of their own are read as their words.** -/
theorem read_onePerLine (lineEnd : LineEnd) (closed : Bool) {ss : List Spelling} (hne : ss ≠ []) :
    Program.read (onePerLine lineEnd closed (spelled ss)) .hex = .ok (ss.map Spelling.word) := by
  obtain ⟨s, ss, rfl⟩ := List.exists_cons_of_ne_nil hne
  obtain ⟨r, hbytes, hwords⟩ := exists_rendering_onePerLine lineEnd closed s ss
  obtain ⟨found, hfound, hfoundWords⟩ := r.exists_found
  rw [← hbytes, ← hwords, ← hfoundWords]
  exact Program.readHex_eq_ok hfound

/-! ## The two commands -/

/-- The warnings about single words. -/
def Outcome.wordWarnings (o : Outcome) : List Event := o.events.filter Event.concernsWord

/-- In a listing, these are all the warnings. -/
theorem Listing.filter_concernsWord_run (config : Config) (machine : Machine) (words : List Word) :
    (run config machine {} words).events.filter Event.concernsWord =
      (run config machine {} words).warnings :=
  List.filter_congr fun _ he => Event.concernsWord_eq (ofListing_of_mem_run he)

/-- Unless words are skipped, the lines are those of all words. -/
theorem listedLines_of_ne_skip {config : Config} (h : config.onInvalid ≠ .skip)
    (words : List Word) :
    listedLines config words = words.zipIdx.map (indexedLine config) := by
  simp [listedLines, h]

theorem invalid_counts_eq_zero_iff (words : List Word) :
    (counts words).invalid = 0 ↔ ∀ w ∈ words, Word.decodes w = true := by
  simp [counts]

section

variable (words : List Word) (registers : RegisterNames) (machine : Machine)
  (directory : Directory)

/-- The report on words given as arguments. -/
theorem Report.decode_eq :
    Report.decode words registers machine =
      ⟨if (counts words).invalid = 0 then 0 else 1,
        bytesOf (listedLines (decodeConfig registers) words),
        ((Listing.run (decodeConfig registers) machine {} words).events ++
          if (counts words).invalid = 0 then []
          else [Event.someInvalid (counts words).invalid]).map .event⟩ := by
  have haddr : AddressesExact (decodeConfig registers) words.length := nofun
  obtain ⟨hresult, hwritten⟩ := Listing.run_of_listed machine haddr nofun
  unfold Report.decode
  simp only [hresult, hwritten]
  split <;> rfl

/-- What comes of words given as arguments. -/
theorem run_decode :
    let outcome := Invocation.run ⟨false, false, .decode words registers⟩ machine directory
    (outcome.exitCode = 0 ↔ ∀ w ∈ words, Word.decodes w = true) ∧
      (outcome.exitCode ≠ 0 → outcome.exitCode = 1) ∧
      outcome.stdout = bytesOf (listedLines (Report.decodeConfig registers) words) ∧
      outcome.wordWarnings =
        (Listing.run (Report.decodeConfig registers) machine {} words).warnings := by
  intro outcome
  have hreport := Report.decode_eq words registers machine
  have hcode : outcome.exitCode = if (counts words).invalid = 0 then 0 else 1 :=
    congrArg Report.exitCode hreport
  have hnotices : outcome.notices = _ := congrArg Report.notices hreport
  rw [hcode, ← invalid_counts_eq_zero_iff]
  refine ⟨?_, ?_, congrArg Report.listing hreport, ?_⟩
  · by_cases hzero : (counts words).invalid = 0 <;> simp [hzero]
  · by_cases hzero : (counts words).invalid = 0 <;> simp [hzero]
  · unfold Outcome.wordWarnings Outcome.events
    rw [hnotices, Notice.filterMap_event?_map, List.filter_append,
      Listing.filter_concernsWord_run]
    -- the count of invalid words is about no single word
    split <;> exact List.append_nil _

/-- What comes of a file with words in hexadecimal. -/
theorem run_disasm_hex {directory : Directory} {path : String} {bytes : List UInt8}
    (hfile : directory.read path = .ok bytes) {words : List Word}
    (hwords : Program.read bytes .hex = .ok words) :
    let config : Config := { inputFormat := .hex, registers := registers }
    let outcome := Invocation.run ⟨false, false, .disasm ⟨path, none, config⟩⟩ machine directory
    outcome.exitCode = 0 ∧ outcome.stdout = bytesOf (listedLines config words) ∧
      outcome.wordWarnings = (Listing.run config machine {} words).warnings := by
  intro config outcome
  have hlistable : Listable config (directory.read path) words :=
    ⟨⟨bytes, hfile, hwords⟩, nofun, nofun⟩
  obtain ⟨hresult, hwritten⟩ := Source.list_of_listable path machine hlistable
  have hreport := Report.ofListing_of_ok ⟨path, none, config⟩ false hresult
  refine ⟨congrArg Report.exitCode hreport,
    (congrArg Report.listing hreport).trans hwritten, ?_⟩
  have hnotices : outcome.notices = _ := congrArg Report.notices hreport
  unfold Outcome.wordWarnings
  rw [Outcome.events_eq hnotices, hfile, Source.list_of_read path machine hwords]
  -- the events around the listing are about no word
  rw [List.filter_cons_of_neg Bool.false_ne_true, List.filter_append,
    List.filter_cons_of_neg Bool.false_ne_true, Listing.filter_concernsWord_run]
  exact List.append_nil _

end

/-- **The commands agree.** Texts that spell words are given as arguments, or one on each line of a
file. Both command lines are understood, and both runs print the lines of the words. They warn about
the same words in the same order, once about each that is rejected. Words given as arguments set the
exit code, which is zero exactly if all are instructions; in a file they do not. -/
theorem decode_agrees_with_hex_file {texts : List String} (hne : texts ≠ [])
    (hwords : ∀ text ∈ texts, ∃ w, Usage.parseWord text = .ok w) (abi : Bool)
    {directory : Directory} {path : String} (hplain : Usage.Argument.ofString path = .plain)
    {lineEnd : LineEnd} {closed : Bool}
    (hfile : directory.read path = .ok (onePerLine lineEnd closed texts)) (machine : Machine) :
    ∃ words decoding disassembling,
      texts.mapM Usage.parseWord = .ok words ∧
      Usage.parse ("decode" :: (texts ++ abiArgument abi)) = .ok decoding ∧
      Usage.parse ("disasm" :: path :: "--format" :: "hex" :: abiArgument abi) =
        .ok disassembling ∧
      let decoded := decoding.run machine directory
      let listed := disassembling.run machine directory
      let config : Config := { registers := if abi then .abi else .numeric }
      decoded.stdout = listed.stdout ∧
      listed.stdout = bytesOf (words.zipIdx.map (indexedLine config)) ∧
      (decoded.exitCode = 0 ↔ ∀ w ∈ words, Word.decodes w = true) ∧
      (decoded.exitCode ≠ 0 → decoded.exitCode = 1) ∧ listed.exitCode = 0 ∧
      decoded.wordWarnings = listed.wordWarnings ∧
      decoded.wordWarnings.map (fun e => (e.message, e.fields)) =
        (words.zipIdx.filter fun p => !Word.decodes p.1).map
          (warningAbout config "invalid instruction") := by
  obtain ⟨ss, rfl⟩ := Usage.exists_spellings hwords
  have hss : ss ≠ [] := by
    rintro rfl
    exact hne rfl
  refine ⟨_, _, _, Usage.mapM_parseWord ss, Usage.parse_decode hss abi,
    Usage.parse_disasm_hex (Directory.ne_of_read hfile) hplain abi, ?_⟩
  generalize (if abi then RegisterNames.abi else .numeric) = registers
  intro decoded listed config
  obtain ⟨hzero, hone, hprinted, hwarned⟩ :=
    run_decode (ss.map Spelling.word) registers machine directory
  obtain ⟨hcode, hprinted', hwarned'⟩ :=
    run_disasm_hex registers machine hfile (read_onePerLine lineEnd closed hss)
  have haddr : AddressesExact (Report.decodeConfig registers) (ss.map Spelling.word).length := nofun
  have haddr' : AddressesExact { inputFormat := .hex, registers := registers }
    (ss.map Spelling.word).length := nofun
  refine ⟨hprinted.trans hprinted'.symm, hprinted'.trans ?_, hzero, hone, hcode, ?_, ?_⟩
  · rw [listedLines_of_ne_skip InvalidPolicy.noConfusion]
    rfl
  · refine hwarned.trans (Eq.trans ?_ hwarned'.symm)
    rw [Listing.warnings_run_of_neverFails _ machine Sink.neverFails_default haddr.fit,
      Listing.warnings_run_of_neverFails _ machine Sink.neverFails_default haddr'.fit]
    rfl
  · rw [show decoded.wordWarnings = _ from hwarned]
    exact Listing.shownWarnings_of_mark machine rfl Sink.neverFails_default haddr

/-- Three words, of which the second is rejected: the exit codes differ, and the lines do not. -/
theorem decode_agrees_with_hex_file_rejected :
    let texts := ["0x00A58533", "7f", "0000_0073"]
    let directory : Directory :=
      ⟨["w"], [(["w", "w.hex"], .file (Utf8.encode "0x00A58533\r\n7f\r\n0000_0073".toList))]⟩
    let machine : Machine := { processors := 2 }
    (∀ text ∈ texts, ∃ w, Usage.parseWord text = .ok w) ∧
    directory.read "w.hex" = .ok (onePerLine .returnLineFeed false texts) ∧
    ∃ decoding disassembling,
      Usage.parse ["decode", "0x00A58533", "7f", "0000_0073", "--abi"] = .ok decoding ∧
      Usage.parse ["disasm", "w.hex", "--format", "hex", "--abi"] = .ok disassembling ∧
      (decoding.run machine directory).exitCode = 1 ∧
      (disassembling.run machine directory).exitCode = 0 ∧
      (decoding.run machine directory).stdout = (disassembling.run machine directory).stdout ∧
      (disassembling.run machine directory).stdout =
        Utf8.encode ("add\ta0, a1, a0\n" ++
          "Invalid Instruction: 0x0000007f (opcode 0x7f, unmatched opcode)\n" ++
          "ecall\n").toList := by
  intro texts directory machine
  have hwords : ∀ text ∈ texts, ∃ w, Usage.parseWord text = .ok w := by
    intro text htext
    rcases List.mem_cons.mp htext with rfl | htext
    · exact ⟨0x00A58533, by decide⟩
    rcases List.mem_cons.mp htext with rfl | htext
    · exact ⟨0x7F, by decide⟩
    rw [List.mem_singleton.mp htext]
    exact ⟨0x73, by decide⟩
  have hfile : directory.read "w.hex" = .ok (onePerLine .returnLineFeed false texts) := by decide
  have hplain : Usage.Argument.ofString "w.hex" = .plain := by decide
  obtain ⟨words, decoding, disassembling, hparsed, hdecode, hdisasm, hsame, hprinted, hzero, hone,
    hcode, -⟩ := decode_agrees_with_hex_file (List.cons_ne_nil _ _) hwords true hplain hfile machine
  have hlist : texts.mapM Usage.parseWord = .ok [0x00A58533, 0x7F, 0x73] := by decide
  obtain rfl : words = [0x00A58533, 0x7F, 0x73] := Except.ok.inj (hparsed.symm.trans hlist)
  refine ⟨hwords, hfile, decoding, disassembling, hdecode, hdisasm, hone fun h => ?_, hcode, hsame,
    hprinted.trans ?_⟩
  · have hall := hzero.mp h
    exact absurd (hall 0x7F (by decide)) (by decide)
  · decide

end RiscvListing
