import Mathlib.Data.List.Perm.Subperm
import Trainer51.Proofs.Image.Lines
import Trainer51.Proofs.Listing.Lookup

/-!
# Texts that are not recognised

The first character of an Intel HEX text that is not blank is a colon.  Whether a file in automatic
format is such a text is seen from its bytes, and of the blanks those of ASCII are skipped there but
for the vertical tab.  A text with another blank in front of its first colon is taken for a binary
dump, which is never the image that it describes, since a text is longer than its data.

    a text that is read holds a colon first, or no record at all                 (colon_first)
    ofIntelHex text = .ok image → image.size < text.length              (size_lt_of_ofIntelHex)
    ofBinary dump = .ok image → image.size = dump.length                      (size_ofBinary)
    when an accepted text gives the same image in automatic format              (accepted_in_auto)
-/

namespace Trainer51

/-- The bytes in front of the first colon. -/
def leader (text : List Byte) : List Byte := text.takeWhile (· != 58)

/-! ## The first character that is not blank -/

theorem find?_blanks {cs : List Char} (h : ∀ c ∈ cs, isBlank c = true) :
    cs.find? (!isBlank ·) = none := by
  rw [List.find?_eq_none]
  intro c hc
  simp [h c hc]

theorem find?_recordText {line : List Byte} {cs : List Char} (h : trimmed line = ':' :: cs) :
    (Utf8.decode line).find? (!isBlank ·) = some ':' := by
  obtain ⟨before, after, cut, hb, -⟩ := exists_blanks (Utf8.decode line)
  unfold trimmed at h
  rw [cut, h, List.append_assoc, List.find?_append, find?_blanks hb]
  rfl

/-- A text that is read begins with a colon, blanks aside, unless it holds no record. -/
theorem colon_first {image image' : Image} {n : Nat} {text : List Byte}
    (h : image.readRecords n (splitLines text) = .ok image') :
    image' = image ∨ (Utf8.decode text).find? (!isBlank ·) = some ':' := by
  have colon {line : List Byte} {r : HexRecord} (h : Record.ofLine (trimmed line) = .ok r.meaning) :
      (Utf8.decode line).find? (!isBlank ·) = some ':' := by
    obtain ⟨_, cs, text, -, -⟩ := Record.ofLine_eq_ok_iff.1 h
    exact find?_recordText text
  induction text using line_induction generalizing n with
  | last line none =>
    rw [splitLines_alone none] at h
    obtain ⟨blank, h⟩ | ⟨r, read, -⟩ := Image.readRecords_cases h
    · cases h
      exact .inl rfl
    · exact .inr (colon read)
  | more line rest none ih =>
    rw [splitLines_lineFeed none] at h
    have feed : Char.ofNat (0x0A : Byte).toNat = '\n' := rfl
    rw [Utf8.decode_append_ascii _ _ (by decide), feed, List.find?_append]
    obtain ⟨blank, h⟩ | ⟨r, read, -⟩ := Image.readRecords_cases h
    · rw [find?_blanks (isBlank_of_trimmed blank)]
      exact ih h
    · rw [colon read]
      exact .inr rfl

/-- What stands in front of the first colon is blank if that is the first character that is not. -/
theorem leader_of_colon_first {text : List Byte}
    (h : (Utf8.decode text).find? (!isBlank ·) = some ':') :
    (∃ after, text = leader text ++ 58 :: after) ∧
      ∀ c ∈ Utf8.decode (leader text), isBlank c = true := by
  obtain ⟨-, front, back, cut, blank⟩ := List.find?_eq_some_iff_append.1 h
  obtain ⟨before, after, rfl, rfl, -⟩ := Utf8.exists_cut (by decide) cut
  have blank : ∀ c ∈ Utf8.decode before, isBlank c = true := by simpa using blank
  have colon : 58 ∉ before := colon_not_mem blank
  have front : leader (before ++ 58 :: after) = before := by
    unfold leader
    rw [List.takeWhile_append_of_pos]
    · simp
    · intro b hb
      have ne : b ≠ 58 := fun e => colon (e ▸ hb)
      simpa using ne
  rw [show (':').toUInt8 = 58 from rfl, front]
  exact ⟨⟨after, rfl⟩, blank⟩

/-- Of the ASCII blanks only the vertical tab is not skipped. -/
theorem isAsciiBlank_iff {b : Byte} (ascii : b < 0x80)
    (blank : isBlank (Char.ofNat b.toNat) = true) : isAsciiBlank b = true ↔ b ≠ 0x0B := by
  have all : ∀ n, n < 128 → isBlank (Char.ofNat n) = true →
      (isAsciiBlank (UInt8.ofNat n) = true ↔ UInt8.ofNat n ≠ 0x0B) := by
    decide +kernel
  have := all b.toNat (UInt8.lt_iff_toNat_lt.1 ascii) blank
  rwa [UInt8.ofNat_toNat] at this

theorem lt_of_isAsciiBlank (b : Byte) : isAsciiBlank b = true → b < 0x80 := by
  refine Byte.forall_of_lt (p := fun b => isAsciiBlank b = true → b < 0x80) ?_ b
  decide +kernel

/-- Which texts with a colon first are recognised. -/
theorem looksLikeIntelHex_iff {text : List Byte}
    (h : (Utf8.decode text).find? (!isBlank ·) = some ':') :
    looksLikeIntelHex text = true ↔ ∀ b ∈ leader text, b < 0x80 ∧ b ≠ 0x0B := by
  obtain ⟨⟨after, cut⟩, blank⟩ := leader_of_colon_first h
  have skipped : looksLikeIntelHex text = true ↔ ∀ b ∈ leader text, isAsciiBlank b = true := by
    have colon : 58 ∉ leader text := colon_not_mem blank
    unfold looksLikeIntelHex
    generalize leader text = front at cut colon
    rw [cut, List.find?_append]
    cases found : front.find? (!isAsciiBlank ·) with
    | none =>
      have none : ∀ b ∈ front, isAsciiBlank b = true := by simpa using List.find?_eq_none.1 found
      exact iff_of_true rfl none
    | some b =>
      obtain ⟨other, hb⟩ := And.intro (List.find?_some found) (List.mem_of_find?_eq_some found)
      have ne : b ≠ 58 := fun e => colon (e ▸ hb)
      simp only [Option.some_or, beq_iff_eq, Option.some.injEq, ne, false_iff]
      intro all
      simp [all b hb] at other
  rw [skipped]
  refine forall₂_congr fun b hb => ?_
  constructor
  · intro skip
    have ascii := lt_of_isAsciiBlank b skip
    exact ⟨ascii, (isAsciiBlank_iff ascii (blank _ (Utf8.mem_decode hb ascii))).1 skip⟩
  · rintro ⟨ascii, tab⟩
    exact (isAsciiBlank_iff ascii (blank _ (Utf8.mem_decode hb ascii))).2 tab

/-! ## A text is longer than its data -/

namespace Image

theorem nodup_toList (image : Image) : image.toList.Nodup := by
  refine image.pairwise_toList.imp fun {x y} lt e => ?_
  rw [e] at lt
  exact UInt16.lt_irrefl _ lt

theorem size_empty : empty.size = 0 := by
  have none : empty.toList = [] := by
    refine List.eq_nil_iff_forall_not_mem.2 fun (a, b) h => ?_
    rw [mem_toList, get?_empty] at h
    cases h
  rw [size, none]
  rfl

theorem length_placeFrom (a : Word) (bytes : List Byte) :
    (placeFrom a bytes).length = bytes.length := by
  induction bytes generalizing a with
  | nil => rfl
  | cons b bytes ih => rw [placeFrom, List.length_cons, List.length_cons, ih]

/-- Written bytes may lie over others. -/
theorem size_write_le (image : Image) (a : Word) {bytes : List Byte}
    (fits : bytes.length ≤ 0x10000) : (image.write a bytes).size ≤ image.size + bytes.length := by
  have cells : (image.write a bytes).toList ⊆ image.toList ++ placeFrom a bytes := by
    rintro ⟨c, b⟩ h
    rw [mem_toList, get?_write _ _ _ _ fits] at h
    rw [List.mem_append, mem_toList, mem_placeFrom]
    cases new : bytes[(c - a).toNat]? with
    | none =>
      rw [new] at h
      exact .inl h
    | some b' =>
      rw [new] at h
      cases h
      refine .inr ⟨_, new, ?_⟩
      rw [UInt16.ofNat_toNat, UInt16.add_comm, UInt16.sub_add_cancel]
  have := ((nodup_toList _).subperm cells).length_le
  rwa [List.length_append, length_placeFrom] at this

theorem size_place_le (r : HexRecord) (image : Image) :
    (r.place image).size ≤ image.size + r.payload.length := by
  have short := r.short
  unfold HexRecord.place
  split
  · exact size_write_le image r.address (by omega)
  · omega

theorem place_congr {r s : HexRecord} (h : r.meaning = s.meaning) (image : Image) :
    r.place image = s.place image := by
  unfold HexRecord.meaning at h
  unfold HexRecord.place
  by_cases hr : r.kind = 0 <;> by_cases hs : s.kind = 0
  · rw [if_pos hr, if_pos hs] at h
    obtain ⟨address, payload⟩ := Record.data.inj h
    rw [if_pos hr, if_pos hs, address, payload]
  · rw [if_pos hr, if_neg hs] at h
    split at h <;> cases h
  · rw [if_neg hr, if_pos hs] at h
    split at h <;> cases h
  · rw [if_neg hr, if_neg hs]

/-- A byte of data takes two digits of the line that it is on. -/
theorem size_place_of_line {line : List Byte} {r : HexRecord}
    (h : Record.ofLine (trimmed line) = .ok r.meaning) (image : Image) :
    2 * (r.place image).size ≤ 2 * image.size + line.length := by
  obtain ⟨s, cs, text, digits, same⟩ := Record.ofLine_eq_ok_iff.1 h
  obtain ⟨before, after, rfl, -, -⟩ := exists_recordText text digits.ascii
  have data := size_place_le s image
  have length := digits.length
  simp only [HexRecord.bytes, HexRecord.body, List.length_append, List.length_cons,
    List.length_nil] at length
  rw [place_congr same]
  simp only [asciiBytes, List.length_append, List.length_map, List.length_cons]
  omega

/-- What one line adds to an image. -/
theorem size_readRecords_cons {image image' : Image} {n : Nat} {line : List Byte}
    {rest : List (List Byte)} (h : readRecords image n (line :: rest) = .ok image') :
    ∃ next : Image, 2 * next.size ≤ 2 * image.size + line.length ∧
      (image' = next ∨ readRecords next (n + 1) rest = .ok image') := by
  obtain ⟨-, more⟩ | ⟨r, read, more⟩ := readRecords_cases h
  · exact ⟨image, by omega, .inr more⟩
  · by_cases stop : r.kind = 1
    · rw [readRecords_record read, if_pos stop] at h
      cases h
      exact ⟨image, by omega, .inl rfl⟩
    · exact ⟨r.place image, size_place_of_line read image, .inr (more stop)⟩

theorem size_readRecords {image image' : Image} {n : Nat} {text : List Byte}
    (h : readRecords image n (splitLines text) = .ok image') :
    2 * image'.size ≤ 2 * image.size + text.length := by
  induction text using line_induction generalizing n image with
  | last line none =>
    rw [splitLines_alone none] at h
    obtain ⟨next, added, rfl | h⟩ := size_readRecords_cons h
    · exact added
    · cases h
      exact added
  | more line rest none ih =>
    rw [splitLines_lineFeed none] at h
    rw [List.length_append, List.length_cons]
    obtain ⟨next, added, rfl | h⟩ := size_readRecords_cons h
    · omega
    · have := ih h
      omega

theorem size_lt_of_ofIntelHex {text : List Byte} {image : Image} (h : ofIntelHex text = .ok image) :
    image.size < text.length := by
  have data : 0 < image.size := List.length_pos_iff.2 (toList_ofIntelHex h)
  have digits := size_readRecords (readRecords_of_ofIntelHex h)
  rw [size_empty] at digits
  omega

theorem pairwise_placeFrom {a : Word} {bytes : List Byte}
    (fits : a.toNat + bytes.length ≤ 0x10000) :
    (placeFrom a bytes).Pairwise (·.1 < ·.1) := by
  induction bytes generalizing a with
  | nil => exact .nil
  | cons b bytes ih =>
    rw [List.length_cons] at fits
    cases bytes with
    | nil => exact List.pairwise_singleton _ _
    | cons c bytes =>
      rw [List.length_cons] at fits ih
      have one : (1 : UInt16).toNat = 1 := rfl
      have next : (a + 1).toNat = a.toNat + 1 := by
        rw [UInt16.toNat_add, one]
        omega
      refine List.pairwise_cons.2 ⟨?_, ih (by omega)⟩
      rintro ⟨d, x⟩ h
      obtain ⟨i, hi, rfl⟩ := (mem_placeFrom _ _ _ _).1 h
      obtain ⟨lt, -⟩ := List.getElem?_eq_some_iff.1 hi
      rw [List.length_cons] at lt
      show a < a + 1 + UInt16.ofNat i
      rw [UInt16.lt_iff_toNat_lt, UInt16.toNat_add, next, UInt16.toNat_ofNat']
      omega

theorem size_ofBinary {dump : List Byte} {image : Image} (h : ofBinary dump = .ok image) :
    image.size = dump.length := by
  unfold ofBinary at h
  split at h
  · cases h
  · split at h
    · cases h
    · next fits =>
      cases h
      have zero : (0 : UInt16).toNat = 0 := rfl
      rw [size, toList_write_empty (pairwise_placeFrom (by omega)), length_placeFrom]

/-! ## Automatic format -/

/-- **Which texts are not recognised.**  The first character of an accepted text that is not blank
is a colon.  In automatic format the text gives the same image just when there is neither a vertical
tab nor a byte from 80h on in front of its first colon; else it is taken for a binary dump. -/
theorem accepted_in_auto {text : List Byte} {image : Image} (h : ofIntelHex text = .ok image) :
    (Utf8.decode text).find? (!isBlank ·) = some ':' ∧
      (parse .auto text = .ok image ↔ ∀ b ∈ leader text, b < 0x80 ∧ b ≠ 0x0B) ∧
      ((∃ b ∈ leader text, 0x80 ≤ b ∨ b = 0x0B) → parse .auto text = ofBinary text) := by
  have colon : (Utf8.decode text).find? (!isBlank ·) = some ':' := by
    rcases colon_first (readRecords_of_ofIntelHex h) with rfl | colon
    · exact absurd (List.length_eq_zero_iff.1 size_empty) (toList_ofIntelHex h)
    · exact colon
  have recognised := looksLikeIntelHex_iff colon
  have auto : parse .auto text =
      if looksLikeIntelHex text then ofIntelHex text else ofBinary text := rfl
  refine ⟨colon, ?_, ?_⟩
  · rw [← recognised, auto]
    constructor
    · intro same
      refine Decidable.byContradiction fun other => ?_
      rw [if_neg other] at same
      have long := size_ofBinary same
      have short := size_lt_of_ofIntelHex h
      omega
    · intro looks
      rw [if_pos looks, h]
  · rintro ⟨b, hb, other⟩
    have not : ¬looksLikeIntelHex text = true := by
      rw [recognised]
      intro all
      obtain ⟨ascii, tab⟩ := all b hb
      exact other.elim (UInt8.not_le.2 ascii) tab
    rw [auto, if_neg not]

/-- A byte of data behind a blank line. -/
def indentedText : List Byte := "\n\t:01000000A55A\n:00000001FF\n".toUTF8.data.toList

theorem accepted_in_auto_indented :
    ofIntelHex indentedText = .ok (empty.write 0 [0xA5]) ∧
      (Utf8.decode indentedText).find? (!isBlank ·) = some ':' ∧
      parse .auto indentedText = .ok (empty.write 0 [0xA5]) := by
  have read : ofIntelHex indentedText = .ok (empty.write 0 [0xA5]) := rfl
  have front : leader indentedText = [0x0A, 0x09] := rfl
  obtain ⟨colon, same, -⟩ := accepted_in_auto read
  rw [front] at same
  exact ⟨read, colon, same.2 (by simp)⟩

/-- A byte of data behind a vertical tab. -/
def tabbedText : List Byte := "\x0b:01000000A55A\n:00000001FF\n".toUTF8.data.toList

/-- A text that is accepted is taken for a binary dump of itself. -/
theorem tabbedText_in_auto :
    ofIntelHex tabbedText = .ok (empty.write 0 [0xA5]) ∧
      parse .auto tabbedText = .ok (empty.write 0 tabbedText) ∧
      parse .auto tabbedText ≠ parse .intelHex tabbedText := by
  have read : ofIntelHex tabbedText = .ok (empty.write 0 [0xA5]) := rfl
  have dump : ofBinary tabbedText = .ok (empty.write 0 tabbedText) := rfl
  have auto : parse .auto tabbedText = .ok (empty.write 0 tabbedText) := dump
  refine ⟨read, auto, fun same => ?_⟩
  rw [auto] at same
  have accepted : ofIntelHex tabbedText = .ok (empty.write 0 tabbedText) := same.symm
  have short := size_lt_of_ofIntelHex accepted
  rw [size_ofBinary dump] at short
  exact Nat.lt_irrefl _ short

end Image

end Trainer51
