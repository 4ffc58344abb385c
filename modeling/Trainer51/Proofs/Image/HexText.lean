import Trainer51.Proofs.Image.Cells
import Trainer51.Proofs.Image.HexRecord

/-!
# Reading back a written Intel HEX text

A text is written from its records one a line, in either case, with spaces and tabs around the
lines and blank lines between them, and with anything behind an end-of-file record.  Reading it
gives each address the byte of the last data record that covers it.

    every list of records without an end of file has a text                    (exists_fileText)
    FileText rs text → rs ≠ [] → text parses to the image of rs,
      and is refused as empty if they hold no data                              (parse_fileText)
-/

namespace Trainer51

/-! ## Written texts -/

/-- Spaces and tabs. -/
def Margin (bs : List Byte) : Prop := ∀ b ∈ bs, b = 0x20 ∨ b = 0x09

/-- A line feed, with or without a carriage return in front. -/
def LineBreak (bs : List Byte) : Prop := bs = [0x0A] ∨ bs = [0x0D, 0x0A]

/-- The bytes of ASCII characters. -/
def asciiBytes (cs : List Char) : List Byte := cs.map Char.toUInt8

/-- The text of a line that holds a record, or of a blank one. -/
inductive LineText : Option HexRecord → List Byte → Prop where
  | blank {margin : List Byte} (h : Margin margin) : LineText none margin
  | record {r : HexRecord} {before after : List Byte} {cs : List Char} (hb : Margin before)
      (spelled : Record.Spells cs r.bytes) (ha : Margin after) :
      LineText (some r) (before ++ asciiBytes (':' :: cs) ++ after)

/-- The text of a file with the records `rs`. -/
inductive FileText : List HexRecord → List Byte → Prop where
  /-- The last line may lack a line break; it may also be empty. -/
  | last {content : Option HexRecord} {line : List Byte} (h : LineText content line) :
      FileText content.toList line
  | line {content : Option HexRecord} {line lineBreak text : List Byte} {rs : List HexRecord}
      (h : LineText content line) (more : ∀ r ∈ content, r.kind ≠ 1) (hl : LineBreak lineBreak)
      (rest : FileText rs text) : FileText (content.toList ++ rs) (line ++ lineBreak ++ text)
  /-- Anything may follow an end-of-file record. -/
  | stop {r : HexRecord} {line lineBreak : List Byte} (h : LineText (some r) line)
      (stop : r.kind = 1) (hl : LineBreak lineBreak) (rest : List Byte) :
      FileText [r] (line ++ lineBreak ++ rest)

/-- Every list of records can be written. -/
theorem exists_fileText {rs : List HexRecord} (h : ∀ r ∈ rs, r.kind ≠ 1) :
    ∃ text, FileText rs text := by
  have margin : Margin [] := by simp [Margin]
  induction rs with
  | nil => exact ⟨[], .last (.blank margin)⟩
  | cons r rs ih =>
    obtain ⟨first, rest⟩ := List.forall_mem_cons.1 h
    obtain ⟨text, written⟩ := ih rest
    have line : LineText (some r) _ := .record margin (Record.spells_digits r.bytes) margin
    exact ⟨_, .line line (by simpa using first) (.inl rfl) written⟩

/-- The byte that a record has for an address. -/
def HexRecord.at? (r : HexRecord) (a : Word) : Option Byte :=
  if r.kind = 0 ∧ r.address ≤ a then r.payload[a.toNat - r.address.toNat]? else none

/-- The byte of the last record that covers an address. -/
def lastAt? (rs : List HexRecord) (a : Word) : Option Byte := rs.reverse.findSome? (·.at? a)

/-! ## Lines -/

theorem splitLines_cons {b : Byte} (hb : b ≠ 0x0A) {text line : List Byte} {rest : List (List Byte)}
    (h : splitLines text = line :: rest) : splitLines (b :: text) = (b :: line) :: rest := by
  unfold splitLines at h ⊢
  rw [List.foldr_cons, h, if_neg hb]

/-- Bytes without a line feed are part of the first line. -/
theorem splitLines_append {start : List Byte} (hs : ∀ b ∈ start, b ≠ 0x0A) {text line : List Byte}
    {rest : List (List Byte)} (h : splitLines text = line :: rest) :
    splitLines (start ++ text) = (start ++ line) :: rest := by
  induction start with
  | nil => exact h
  | cons b start ih =>
    obtain ⟨hb, hs⟩ := List.forall_mem_cons.1 hs
    exact splitLines_cons hb (ih hs)

/-- A text is split at its first line feed. -/
theorem splitLines_lineFeed {line : List Byte} (h : ∀ b ∈ line, b ≠ 0x0A) (rest : List Byte) :
    splitLines (line ++ 0x0A :: rest) = line :: splitLines rest := by
  have feed : splitLines (0x0A :: rest) = [] :: splitLines rest := rfl
  rw [splitLines_append h feed, List.append_nil]

theorem splitLines_alone {line : List Byte} (h : ∀ b ∈ line, b ≠ 0x0A) :
    splitLines line = [line] := by
  have nothing : splitLines [] = [[]] := rfl
  have alone := splitLines_append h nothing
  rwa [List.append_nil] at alone

theorem dropWhile_blank {cs : List Char} (h : ∀ c ∈ cs, isBlank c = false) :
    cs.dropWhile isBlank = cs := by
  cases cs with
  | nil => rfl
  | cons c cs => rw [List.dropWhile_cons_of_neg (by simp [h c List.mem_cons_self])]

/-- Blanks are trimmed from both ends. -/
theorem trimBlanks_append {before cs after : List Char} (hb : ∀ c ∈ before, isBlank c = true)
    (hc : ∀ c ∈ cs, isBlank c = false) (ha : ∀ c ∈ after, isBlank c = true) :
    trimBlanks (before ++ cs ++ after) = cs := by
  have front : (before ++ cs ++ after).dropWhile isBlank = (cs ++ after).dropWhile isBlank := by
    rw [List.append_assoc, List.dropWhile_append_of_pos hb]
  have back (l : List Char) : ((l ++ after).reverse.dropWhile isBlank) =
      l.reverse.dropWhile isBlank := by
    rw [List.reverse_append, List.dropWhile_append_of_pos]
    simpa using ha
  unfold trimBlanks
  rw [front]
  cases cs with
  | nil =>
    have all : (after ++ []).dropWhile isBlank = [] := List.dropWhile_append_of_pos ha
    rw [List.append_nil] at all
    rw [List.nil_append, all]
    rfl
  | cons c cs =>
    rw [List.cons_append, List.dropWhile_cons_of_neg (by simp [hc c List.mem_cons_self]),
      ← List.cons_append, back, dropWhile_blank, List.reverse_reverse]
    exact fun d hd => hc d (List.mem_reverse.1 hd)

/-- The bytes that may stand around the text of a line. -/
def IsSpace (b : Byte) : Prop := b = 0x20 ∨ b = 0x09 ∨ b = 0x0D

theorem trimmed_line {before after : List Byte} {cs : List Char} (hb : ∀ b ∈ before, IsSpace b)
    (hc : ∀ c ∈ cs, c.toNat < 128 ∧ isBlank c = false) (ha : ∀ b ∈ after, IsSpace b) :
    trimmed (before ++ asciiBytes cs ++ after) = cs := by
  have space {bs : List Byte} (h : ∀ b ∈ bs, IsSpace b) :
      ∀ c ∈ bs.map fun b => Char.ofNat b.toNat, isBlank c = true := by
    intro c hc
    obtain ⟨b, hb, rfl⟩ := List.mem_map.1 hc
    rcases h b hb with rfl | rfl | rfl <;> decide
  have small {b : Byte} (h : IsSpace b) : b < 0x80 := by
    rcases h with rfl | rfl | rfl <;> decide
  have code {c : Char} (h : c ∈ cs) : c.toUInt8.toNat = c.toNat := by
    have lt := (hc c h).1
    show c.toNat % 256 = c.toNat
    omega
  have back : (asciiBytes cs).map (fun b => Char.ofNat b.toNat) = cs := by
    unfold asciiBytes
    rw [List.map_map]
    refine (List.map_congr_left fun c h => ?_).trans (List.map_id cs)
    show Char.ofNat c.toUInt8.toNat = c
    rw [code h, Char.ofNat_toNat]
  have ascii : ∀ b ∈ before ++ asciiBytes cs ++ after, b < 0x80 := by
    intro b h
    rcases List.mem_append.1 h with h | h
    · rcases List.mem_append.1 h with h | h
      · exact small (hb b h)
      · obtain ⟨c, hm, rfl⟩ := List.mem_map.1 h
        rw [UInt8.lt_iff_toNat_lt, code hm]
        exact (hc c hm).1
    · exact small (ha b h)
  unfold trimmed
  rw [Utf8.decode_ascii _ ascii, List.map_append, List.map_append, back]
  exact trimBlanks_append (space hb) (fun c h => (hc c h).2) (space ha)

/-! ## Written lines -/

theorem Margin.isSpace {bs : List Byte} (h : Margin bs) : ∀ b ∈ bs, IsSpace b :=
  fun b hb => (h b hb).imp_right .inl

theorem IsSpace.ne_lineFeed {b : Byte} (h : IsSpace b) : b ≠ 0x0A := by
  rcases h with rfl | rfl | rfl <;> decide

/-- What may stand between the text of a line and its line feed. -/
theorem LineBreak.eq_append {lineBreak : List Byte} (h : LineBreak lineBreak) :
    ∃ cr, lineBreak = cr ++ [0x0A] ∧ ∀ b ∈ cr, IsSpace b := by
  rcases h with rfl | rfl
  · exact ⟨[], rfl, by simp⟩
  · exact ⟨[0x0D], rfl, by simp [IsSpace]⟩

/-- The characters of a written record are digits behind a colon. -/
theorem plain_of_spells {cs : List Char} {bs : List Byte} (h : Record.Spells cs bs) :
    ∀ c ∈ ':' :: cs, c.toNat < 128 ∧ isBlank c = false := by
  have digit : ∀ k, k < 128 → (Record.digit? (Char.ofNat k)).isSome →
      isBlank (Char.ofNat k) = false := by
    decide +kernel
  intro c hc
  rcases List.mem_cons.1 hc with rfl | hc
  · decide
  · have small := (Record.spells_iff.1 h).1.ascii c hc
    have some := Record.isSome_digit?_of_spells h hc
    exact ⟨small, Hexadecimal.forall_digit (p := fun c => isBlank c = false) digit some⟩

/-- What a written line is read as. -/
def LineReads : Option HexRecord → List Byte → Prop
  | none, line => trimmed line = []
  | some r, line => Record.ofLine (trimmed line) = .ok r.meaning

namespace LineText

variable {content : Option HexRecord} {line : List Byte}

theorem reads (h : LineText content line) {cr : List Byte} (hcr : ∀ b ∈ cr, IsSpace b) :
    LineReads content (line ++ cr) := by
  cases h with
  | blank h =>
    have reads : trimmed (line ++ asciiBytes [] ++ cr) = [] :=
      trimmed_line h.isSpace (by simp) hcr
    rwa [show line ++ asciiBytes [] = line from List.append_nil _] at reads
  | @record r before after cs hb spelled ha =>
    have space : ∀ b ∈ after ++ cr, IsSpace b := by
      intro b h
      exact (List.mem_append.1 h).elim (ha.isSpace b) (hcr b)
    show Record.ofLine (trimmed (before ++ asciiBytes (':' :: cs) ++ after ++ cr)) = _
    rw [List.append_assoc _ after, trimmed_line hb.isSpace (plain_of_spells spelled) space]
    exact Record.ofLine_eq_ok_iff.2 ⟨r, cs, rfl, (Record.spells_iff.1 spelled).1, rfl⟩

theorem ne_lineFeed (h : LineText content line) : ∀ b ∈ line, b ≠ 0x0A := by
  cases h with
  | blank h => exact fun b hb => (h.isSpace b hb).ne_lineFeed
  | @record r before after cs hb spelled ha =>
    intro b h
    rcases List.mem_append.1 h with h | h
    · rcases List.mem_append.1 h with h | h
      · exact (hb.isSpace b h).ne_lineFeed
      · obtain ⟨c, hc, rfl⟩ := List.mem_map.1 h
        obtain ⟨small, blank⟩ := plain_of_spells spelled c hc
        intro e
        have code : c.toNat % 256 = 10 := congrArg UInt8.toNat e
        have feed : c.toNat = 10 := by omega
        rw [← Char.ofNat_toNat c, feed] at blank
        cases blank
    · exact (ha.isSpace b h).ne_lineFeed

end LineText

/-! ## Reading a text -/

/-- The image of records, placed one after the other. -/
def placeAll (image : Image) (rs : List HexRecord) : Image :=
  rs.foldl (fun image r => r.place image) image

theorem placeAll_append (image : Image) (rs ss : List HexRecord) :
    placeAll image (rs ++ ss) = placeAll (placeAll image rs) ss :=
  List.foldl_append

/-- A line is read like the records it holds. -/
theorem readRecords_line {content : Option HexRecord} {line : List Byte}
    (h : LineReads content line) (more : ∀ r ∈ content, r.kind ≠ 1) (image : Image) (n : Nat)
    (rest : List (List Byte)) :
    image.readRecords n (line :: rest) =
      (placeAll image content.toList).readRecords (n + 1) rest := by
  cases content with
  | none => exact Image.readRecords_blank h
  | some r => rw [Image.readRecords_record h, if_neg (more r rfl)]; rfl

/-- Nothing is read behind an end-of-file record. -/
theorem readRecords_stop {r : HexRecord} {line : List Byte} (h : LineReads (some r) line)
    (stop : r.kind = 1) (image : Image) (n : Nat) (rest : List (List Byte)) :
    image.readRecords n (line :: rest) = .ok (placeAll image [r]) := by
  have data : r.kind ≠ 0 := by
    rw [stop]
    decide
  have same : r.place image = image := if_neg data
  rw [Image.readRecords_record h, if_pos stop]
  exact congrArg Except.ok same.symm

theorem readRecords_fileText {rs : List HexRecord} {text : List Byte} (h : FileText rs text)
    (image : Image) (n : Nat) :
    image.readRecords n (splitLines text) = .ok (placeAll image rs) := by
  have split {line lineBreak : List Byte} {content : Option HexRecord} (hl : LineText content line)
      (hb : LineBreak lineBreak) (rest : List Byte) :
      ∃ whole, LineReads content whole ∧
        splitLines (line ++ lineBreak ++ rest) = whole :: splitLines rest := by
    obtain ⟨cr, rfl, hcr⟩ := hb.eq_append
    refine ⟨line ++ cr, hl.reads hcr, ?_⟩
    have inner : ∀ b ∈ line ++ cr, b ≠ 0x0A := by
      intro b h
      exact (List.mem_append.1 h).elim (hl.ne_lineFeed b) fun h => (hcr b h).ne_lineFeed
    rw [← splitLines_lineFeed inner]
    simp
  induction h generalizing image n with
  | @last content line hl =>
    have reads : LineReads content (line ++ []) := hl.reads (by simp)
    rw [List.append_nil] at reads
    rw [splitLines_alone hl.ne_lineFeed]
    by_cases stop : ∃ r, content = some r ∧ r.kind = 1
    · obtain ⟨r, rfl, stop⟩ := stop
      exact readRecords_stop reads stop image n []
    · rw [readRecords_line reads (fun r hr hk => stop ⟨r, hr, hk⟩)]
      rfl
  | line hl more hb _ ih =>
    obtain ⟨whole, reads, text⟩ := split hl hb _
    rw [text, readRecords_line reads more, ih, placeAll_append]
  | stop hl stop hb rest =>
    obtain ⟨whole, reads, text⟩ := split hl hb rest
    rw [text, readRecords_stop reads stop]

/-! ## The image that is read -/

theorem get?_place (r : HexRecord) (image : Image) (a : Word) :
    (r.place image).get? a = (r.at? a).or (image.get? a) := by
  have short := r.short
  unfold HexRecord.place HexRecord.at?
  by_cases data : r.kind = 0
  · have fits := r.fits data
    rw [if_pos data, Image.get?_write _ _ _ _ (by omega)]
    by_cases above : r.address ≤ a
    · rw [if_pos ⟨data, above⟩, UInt16.toNat_sub_of_le _ _ above]
      cases r.payload[a.toNat - r.address.toNat]? <;> rfl
    · have lt := UInt16.lt_iff_toNat_lt.1 (UInt16.not_le.1 above)
      have beyond : r.payload.length ≤ (a - r.address).toNat := by
        rw [UInt16.toNat_sub]
        omega
      rw [if_neg fun h => above h.2, List.getElem?_eq_none beyond]
      rfl
  · rw [if_neg data, if_neg fun h => data h.1]
    rfl

/-- Later records win over earlier ones, and both over what was there. -/
theorem get?_placeAll (rs : List HexRecord) (image : Image) (a : Word) :
    (placeAll image rs).get? a = (lastAt? rs a).or (image.get? a) := by
  unfold lastAt?
  induction rs generalizing image with
  | nil => rfl
  | cons r rs ih =>
    have step : placeAll image (r :: rs) = placeAll (r.place image) rs := rfl
    rw [step, ih, get?_place, List.reverse_cons, List.findSome?_append, ← Option.or_assoc]
    simp

theorem get?_placeAll_empty (rs : List HexRecord) (a : Word) :
    (placeAll .empty rs).get? a = lastAt? rs a := by
  rw [get?_placeAll, Image.get?_empty, Option.or_none]

/-- A record with data covers its own address. -/
theorem isSome_lastAt? {rs : List HexRecord} {r : HexRecord} (hr : r ∈ rs) (data : r.kind = 0)
    (some : r.payload ≠ []) : (lastAt? rs r.address).isSome := by
  have own : (r.at? r.address).isSome := by
    unfold HexRecord.at?
    rw [if_pos ⟨data, UInt16.le_refl _⟩, Nat.sub_self]
    simpa using List.length_pos_iff.2 some
  unfold lastAt?
  rw [List.isSome_findSome?]
  simp only [List.any_reverse, List.any_eq_true]
  exact ⟨r, hr, own⟩

theorem lastAt?_eq_none {rs : List HexRecord} (h : ∀ r ∈ rs, r.kind = 0 → r.payload = [])
    (a : Word) : lastAt? rs a = none := by
  refine List.findSome?_eq_none_iff.2 fun r hr => ?_
  unfold HexRecord.at?
  split
  · next data =>
    rw [h r (List.mem_reverse.1 hr) data.1]
    rfl
  · rfl

/-! ## The format of a text -/

theorem find?_spaces {bs : List Byte} (h : ∀ b ∈ bs, IsSpace b) :
    bs.find? (!isAsciiBlank ·) = none := by
  rw [List.find?_eq_none]
  intro b hb
  rcases h b hb with rfl | rfl | rfl <;> decide

theorem find?_lineBreak {lineBreak : List Byte} (h : LineBreak lineBreak) :
    lineBreak.find? (!isAsciiBlank ·) = none := by
  rcases h with rfl | rfl <;> rfl

theorem LineText.find? {content : Option HexRecord} {line : List Byte}
    (h : LineText content line) :
    line.find? (!isAsciiBlank ·) = content.map fun _ => 58 := by
  cases h with
  | blank h => exact find?_spaces h.isSpace
  | record hb =>
    rw [List.append_assoc, List.find?_append, find?_spaces hb.isSpace]
    rfl

/-- A text with a record starts with a colon, blanks aside. -/
theorem find?_fileText {rs : List HexRecord} {text : List Byte} (h : FileText rs text)
    (hne : rs ≠ []) : text.find? (!isAsciiBlank ·) = some 58 := by
  induction h with
  | @last content line hl =>
    cases content with
    | none => exact absurd rfl hne
    | some r => exact hl.find?
  | @line content line lineBreak text rs hl _ hb _ ih =>
    rw [List.find?_append, List.find?_append, hl.find?, find?_lineBreak hb]
    cases content with
    | none => exact ih hne
    | some r => rfl
  | stop hl =>
    rw [List.find?_append, List.find?_append, hl.find?]
    rfl

/-! ## Reading back -/

/-- **A written text is read back.**  A text with at least one record is taken for Intel HEX, and
gives each address the byte of the last data record that covers it; without any data it is refused
as empty. -/
theorem parse_fileText {rs : List HexRecord} {text : List Byte} (h : FileText rs text)
    (hne : rs ≠ []) :
    Image.parse .auto text = Image.parse .intelHex text ∧
      ((∃ r ∈ rs, r.kind = 0 ∧ r.payload ≠ []) →
        ∃ image, Image.parse .intelHex text = .ok image ∧ ∀ a, image.get? a = lastAt? rs a) ∧
      ((∀ r ∈ rs, r.kind = 0 → r.payload = []) →
        Image.parse .intelHex text = .error .empty) := by
  have detected : looksLikeIntelHex text = true := by
    unfold looksLikeIntelHex
    rw [find?_fileText h hne]
    rfl
  have read : Image.parse .intelHex text =
      if (placeAll .empty rs).toList.isEmpty then .error .empty
      else .ok (placeAll .empty rs) := by
    show Image.ofIntelHex text = _
    unfold Image.ofIntelHex
    rw [readRecords_fileText h]
  refine ⟨if_pos detected, ?_, ?_⟩
  · rintro ⟨r, hr, data, some⟩
    have cell := isSome_lastAt? hr data some
    rw [← get?_placeAll_empty] at cell
    obtain ⟨b, hb⟩ := Option.isSome_iff_exists.1 cell
    have held : (placeAll .empty rs).toList.isEmpty = false :=
      List.isEmpty_eq_false_iff.2 (List.ne_nil_of_mem ((Image.mem_toList _ _ _).2 hb))
    rw [read, held]
    exact ⟨_, rfl, get?_placeAll_empty rs⟩
  · intro none
    have held : (placeAll .empty rs).toList = [] := by
      refine List.eq_nil_iff_forall_not_mem.2 fun (a, b) hm => ?_
      rw [Image.mem_toList, get?_placeAll_empty, lastAt?_eq_none none] at hm
      cases hm
    rw [read, held]
    rfl

/-- Two overlapping data records, the selection of the first 64K, and the end of the file. -/
def overlappingRecords : List HexRecord :=
  [⟨0x0000, 0, [0x01, 0x02, 0x03], by decide, by decide, by decide, by decide⟩,
    ⟨0x0000, 4, [0x00, 0x00], by decide, by decide, by decide, by simp⟩,
    ⟨0x0001, 0, [0xAB], by decide, by decide, by decide, by decide⟩,
    ⟨0x0000, 1, [], by decide, by decide, by decide, by decide⟩]

/-- One of their texts, with a byte behind the end. -/
def overlappingText : List Byte :=
  "\t:03000000010203F7\r\n\n:020000040000fA\n :01000100ab53 \n:00000001Ff\nx".toUTF8.data.toList

theorem fileText_overlapping : FileText overlappingRecords overlappingText := by
  have margin : ∀ bs ∈ [[], [0x20], [0x09]], Margin bs := by
    simp [Margin]
  have lf : LineBreak [0x0A] := .inl rfl
  have crlf : LineBreak [0x0D, 0x0A] := .inr rfl
  have first : LineText (some overlappingRecords[0])
      ([0x09] ++ asciiBytes (':' :: "03000000010203F7".toList) ++ []) :=
    .record (margin _ (by decide)) (by decide) (margin _ (by decide))
  have blank : LineText none [] := .blank (margin _ (by decide))
  have second : LineText (some overlappingRecords[1])
      ([] ++ asciiBytes (':' :: "020000040000fA".toList) ++ []) :=
    .record (margin _ (by decide)) (by decide) (margin _ (by decide))
  have third : LineText (some overlappingRecords[2])
      ([0x20] ++ asciiBytes (':' :: "01000100ab53".toList) ++ [0x20]) :=
    .record (margin _ (by decide)) (by decide) (margin _ (by decide))
  have stop : LineText (some overlappingRecords[3])
      ([] ++ asciiBytes (':' :: "00000001Ff".toList) ++ []) :=
    .record (margin _ (by decide)) (by decide) (margin _ (by decide))
  have text := FileText.line first (by simp; decide) crlf
    (.line blank (by simp) lf
      (.line second (by simp; decide) lf
        (.line third (by simp; decide) lf
          (.stop stop rfl lf "x".toUTF8.data.toList))))
  exact text

/-- The second data record wins at the address that both cover. -/
theorem parse_fileText_overlapping :
    FileText overlappingRecords overlappingText ∧ overlappingRecords ≠ [] ∧
      Image.parse .auto overlappingText = Image.parse .intelHex overlappingText ∧
      (∃ image, Image.parse .intelHex overlappingText = .ok image ∧
        ∀ a, image.get? a = lastAt? overlappingRecords a) ∧
      [0, 1, 2, 3].map (lastAt? overlappingRecords) =
        [some 0x01, some 0xAB, some 0x03, none] := by
  have records : overlappingRecords ≠ [] := by
    intro h
    cases h
  obtain ⟨auto, image, -⟩ := parse_fileText fileText_overlapping records
  have data : ∃ r ∈ overlappingRecords, r.kind = 0 ∧ r.payload ≠ [] := by decide
  exact ⟨fileText_overlapping, records, auto, image data, by decide⟩

end Trainer51
