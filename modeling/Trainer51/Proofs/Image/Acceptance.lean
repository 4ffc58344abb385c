import Trainer51.Proofs.Image.HexRecord

/-!
# What an accepted Intel HEX text looks like

Every line of an accepted text up to its first end-of-file record is blank or a colon and the digit
pairs of a record.  Where a pair has a plus sign for its first digit the line is no record of the
format, although it is read as one.

    ofIntelHex text = .ok image → every line read is blank or holds a record      (accepted_lines)
    then all of them are as the format says just when none has a plus sign
-/

namespace Trainer51

/-! ## The lines that are read -/

/-- The lines up to and including the first end-of-file record. -/
def throughEnd : List (List Char) → List (List Char)
  | [] => []
  | line :: rest =>
    match Record.ofLine line with
    | .ok .endOfFile => [line]
    | _ => line :: throughEnd rest

/-- The lines of a text that are read, without the blanks around them. -/
def linesRead (text : List Byte) : List (List Char) := throughEnd ((splitLines text).map trimmed)

/-- A line as the format has it: a colon and hexadecimal digits of either case that spell the bytes
of a record. -/
def RecordLine (line : List Char) : Prop :=
  ∃ (r : HexRecord) (cs : List Char), line = ':' :: cs ∧ Record.Spells cs r.bytes

/-- A line as it is read: a plus sign may stand for the first digit of a pair. -/
def ReadLine (line : List Char) : Prop :=
  ∃ (r : HexRecord) (cs : List Char), line = ':' :: cs ∧ Record.Digits cs r.bytes

/-- Only a plus sign makes a difference between the two. -/
theorem recordLine_iff (line : List Char) : RecordLine line ↔ ReadLine line ∧ '+' ∉ line := by
  constructor
  · rintro ⟨r, cs, rfl, spelled⟩
    obtain ⟨digits, plus⟩ := Record.spells_iff.1 spelled
    exact ⟨⟨r, cs, rfl, digits⟩, by simpa using plus⟩
  · rintro ⟨⟨r, cs, rfl, digits⟩, plus⟩
    exact ⟨r, cs, rfl, Record.spells_iff.2 ⟨digits, by simpa using plus⟩⟩

theorem throughEnd_record {line : List Char} {r : HexRecord}
    (h : Record.ofLine line = .ok r.meaning) (rest : List (List Char)) :
    throughEnd (line :: rest) = if r.kind = 1 then [line] else line :: throughEnd rest := by
  rw [throughEnd, h]
  unfold HexRecord.meaning
  by_cases data : r.kind = 0
  · simp [data]
  · by_cases stop : r.kind = 1 <;> simp [data, stop]

namespace Image

theorem lines_of_readRecords {image image' : Image} {n : Nat} {lines : List (List Byte)}
    (h : readRecords image n lines = .ok image') :
    ∀ line ∈ throughEnd (lines.map trimmed), line = [] ∨ ReadLine line := by
  induction lines generalizing image n with
  | nil => simp [throughEnd]
  | cons text rest ih =>
    rw [List.map_cons]
    obtain ⟨blank, h⟩ | ⟨r, read, h⟩ := readRecords_cases h
    · rw [blank]
      intro line hl
      rcases List.mem_cons.1 hl with rfl | hl
      · exact .inl rfl
      · exact ih h line hl
    · have first : ReadLine (trimmed text) := by
        obtain ⟨r', cs, text, digits, -⟩ := Record.ofLine_eq_ok_iff.1 read
        exact ⟨r', cs, text, digits⟩
      rw [throughEnd_record read]
      split
      · intro line hl
        rw [List.mem_singleton.1 hl]
        exact .inr first
      · next more =>
        intro line hl
        rcases List.mem_cons.1 hl with rfl | hl
        · exact .inr first
        · exact ih (h more) line hl

/-- **What is accepted.**  Every line that is read of an accepted text is blank or a colon and the
digit pairs of a record.  All of them are as the format has them just when none has a plus sign. -/
theorem accepted_lines {text : List Byte} {image : Image} (h : ofIntelHex text = .ok image) :
    (∀ line ∈ linesRead text, line = [] ∨ ReadLine line) ∧
      ((∀ line ∈ linesRead text, line = [] ∨ RecordLine line) ↔
        ∀ line ∈ linesRead text, '+' ∉ line) := by
  have lines : ∀ line ∈ linesRead text, line = [] ∨ ReadLine line := by
    unfold ofIntelHex at h
    split at h
    · next read => exact lines_of_readRecords read
    · cases h
  refine ⟨lines, ?_⟩
  constructor
  · intro sound line hl
    rcases sound line hl with rfl | record
    · exact List.not_mem_nil
    · exact ((recordLine_iff line).1 record).2
  · intro plus line hl
    exact (lines line hl).imp_right fun read => (recordLine_iff line).2 ⟨read, plus line hl⟩

/-- What follows the end-of-file record is not read. -/
theorem accepted_lines_trailing :
    let text := ":03000000020100FA\n:00000001FF\nend\n".toUTF8.data.toList
    let image := Image.empty.write 0 [0x02, 0x01, 0x00]
    ofIntelHex text = .ok image ∧
      (∀ line ∈ linesRead text, line = [] ∨ ReadLine line) ∧
      ((∀ line ∈ linesRead text, line = [] ∨ RecordLine line) ↔
        ∀ line ∈ linesRead text, '+' ∉ line) :=
  ⟨rfl, accepted_lines rfl⟩

/-- One data byte, whose digits are a plus sign and a 5. -/
def signedText : List Byte := ":01000000+5FA\n".toUTF8.data.toList

/-- A text with a plus sign is accepted although its line is not as the format has it. -/
theorem accepted_signedText :
    ofIntelHex signedText = .ok (empty.write 0 [0x05]) ∧
      ¬ ∀ line ∈ linesRead signedText, line = [] ∨ RecordLine line := by
  refine ⟨rfl, fun sound => ?_⟩
  have read : linesRead signedText = [":01000000+5FA".toList, []] := rfl
  rw [read] at sound
  rcases sound _ List.mem_cons_self with blank | record
  · cases blank
  · have plus := ((recordLine_iff _).1 record).2
    exact plus (by decide)

end Image

end Trainer51
