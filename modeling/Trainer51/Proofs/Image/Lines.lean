import Trainer51.Proofs.Image.HexText
import Trainer51.Proofs.Text.Utf8

/-!
# Lines of a text, byte by byte

A text is taken apart at its line feeds and a line at the record it holds.  Whatever bytes stand
there instead, the other lines and the blanks around the record are read as before.

    text = above ++ line ++ below, and another line there is that line           (exists_line)
    trimmed line = ':' :: cs → line = before ++ ':' :: cs ++ after, with blanks  (exists_recordText)
    any other plain text between before and after is read as it is           (trimmed_recordText)
-/

namespace Trainer51

/-! ## Blanks -/

/-- What is trimmed off is blank. -/
theorem exists_blanks (cs : List Char) :
    ∃ before after, cs = before ++ trimBlanks cs ++ after ∧
      (∀ c ∈ before, isBlank c = true) ∧ ∀ c ∈ after, isBlank c = true := by
  have blank (l : List Char) : ∀ c ∈ l.takeWhile isBlank, isBlank c = true :=
    List.all_eq_true.1 List.all_takeWhile
  refine ⟨cs.takeWhile isBlank, ((cs.dropWhile isBlank).reverse.takeWhile isBlank).reverse, ?_,
    blank cs, fun c hc => blank _ c (List.mem_reverse.1 hc)⟩
  unfold trimBlanks
  rw [List.append_assoc, ← List.reverse_append, List.takeWhile_append_dropWhile,
    List.reverse_reverse, List.takeWhile_append_dropWhile]

theorem isBlank_of_trimmed {line : List Byte} (h : trimmed line = []) :
    ∀ c ∈ Utf8.decode line, isBlank c = true := by
  obtain ⟨before, after, cut, hb, ha⟩ := exists_blanks (Utf8.decode line)
  unfold trimmed at h
  rw [h, List.append_nil] at cut
  intro c hc
  rw [cut] at hc
  exact (List.mem_append.1 hc).elim (hb c) (ha c)

/-! ## Lines -/

/-- A text is a line, or a line, a line feed and a text. -/
@[elab_as_elim]
theorem line_induction {p : List Byte → Prop}
    (last : ∀ line, (∀ b ∈ line, b ≠ 0x0A) → p line)
    (more : ∀ line rest, (∀ b ∈ line, b ≠ 0x0A) → p rest → p (line ++ 0x0A :: rest))
    (text : List Byte) : p text := by
  by_cases feed : 0x0A ∈ text
  · obtain ⟨line, rest, cut, none⟩ := List.eq_append_cons_of_mem feed
    have shorter : rest.length < text.length := by
      rw [cut, List.length_append, List.length_cons]
      omega
    rw [cut]
    exact more line rest (fun b hb e => none (e ▸ hb)) (line_induction last more rest)
  · exact last text fun b hb e => feed (e ▸ hb)
termination_by text.length

theorem ne_lineFeed_of_mem {text line : List Byte} (h : line ∈ splitLines text) :
    ∀ b ∈ line, b ≠ 0x0A := by
  induction text using line_induction with
  | last text none =>
    rw [splitLines_alone none] at h
    cases List.mem_singleton.1 h
    exact none
  | more first rest none ih =>
    rw [splitLines_lineFeed none] at h
    rcases List.mem_cons.1 h with rfl | h
    · exact none
    · exact ih h

/-- Where a line begins; lines are counted from zero. -/
def lineStart (text : List Byte) (i : Nat) : Nat :=
  (((splitLines text).take i).map fun line => line.length + 1).sum

/-- **A line can be exchanged.** -/
theorem exists_line {text line : List Byte} {i : Nat} (h : (splitLines text)[i]? = some line) :
    ∃ above below, text = above ++ line ++ below ∧ above.length = lineStart text i ∧
      ∀ other : List Byte, (∀ b ∈ other, b ≠ 0x0A) →
        splitLines (above ++ other ++ below) = (splitLines text).set i other := by
  unfold lineStart
  induction text using line_induction generalizing i with
  | last text none =>
    rw [splitLines_alone none] at h ⊢
    cases i with
    | zero =>
      cases h
      refine ⟨[], [], by simp, rfl, fun other ho => ?_⟩
      rw [List.nil_append, List.append_nil, splitLines_alone ho]
      rfl
    | succ i => cases h
  | more first rest none ih =>
    rw [splitLines_lineFeed none] at h ⊢
    cases i with
    | zero =>
      cases h
      refine ⟨[], 0x0A :: rest, rfl, rfl, fun other ho => ?_⟩
      rw [List.nil_append, splitLines_lineFeed ho]
      rfl
    | succ i =>
      obtain ⟨above, below, cut, start, exchange⟩ := ih h
      refine ⟨first ++ 0x0A :: above, below, by simp [cut], ?_, fun other ho => ?_⟩
      · rw [List.length_append, List.length_cons, start, List.take_succ_cons, List.map_cons,
          List.sum_cons]
        omega
      · have cut' : first ++ 0x0A :: above ++ other ++ below =
            first ++ 0x0A :: (above ++ other ++ below) := by simp
        rw [cut', splitLines_lineFeed none, exchange other ho]
        rfl

/-! ## The text of a record -/

/-- A line that holds a record has the bytes of its characters, between bytes that are blank. -/
theorem exists_recordText {line : List Byte} {cs : List Char} (h : trimmed line = ':' :: cs)
    (ascii : ∀ c ∈ cs, c.toNat < 128) :
    ∃ before after, line = before ++ asciiBytes (':' :: cs) ++ after ∧
      (∀ c ∈ Utf8.decode before, isBlank c = true) ∧
      ∀ c ∈ Utf8.decode after, isBlank c = true := by
  obtain ⟨front, back, cut, hf, hb⟩ := exists_blanks (Utf8.decode line)
  unfold trimmed at h
  rw [h] at cut
  have chars : ∀ c ∈ ':' :: cs, c.toNat < 0x80 := by
    rintro c hc
    rcases List.mem_cons.1 hc with rfl | hc
    · decide
    · exact ascii c hc
  obtain ⟨before, after, rfl, rfl, rfl⟩ := Utf8.exists_cut_chars chars cut
  exact ⟨before, after, rfl, hf, hb⟩

/-- Between blank bytes a record is read as it is. -/
theorem trimmed_recordText {before after : List Byte} {cs : List Char}
    (hb : ∀ c ∈ Utf8.decode before, isBlank c = true)
    (plain : ∀ c ∈ ':' :: cs, c.toNat < 128 ∧ isBlank c = false)
    (ha : ∀ c ∈ Utf8.decode after, isBlank c = true) :
    trimmed (before ++ asciiBytes (':' :: cs) ++ after) = ':' :: cs := by
  unfold trimmed asciiBytes
  rw [Utf8.decode_append_chars fun c hc => (plain c hc).1]
  exact trimBlanks_append hb (fun c hc => (plain c hc).2) ha

theorem recordText_ne_lineFeed {cs : List Char}
    (plain : ∀ c ∈ cs, c.toNat < 128 ∧ isBlank c = false) : ∀ b ∈ asciiBytes cs, b ≠ 0x0A := by
  intro b hb e
  obtain ⟨c, hc, rfl⟩ := List.mem_map.1 hb
  obtain ⟨ascii, blank⟩ := plain c hc
  obtain ⟨-, same⟩ := Utf8.ofNat_toUInt8 ascii
  rw [← same, e] at blank
  cases blank

/-- An accepted text is read without a fault. -/
theorem readRecords_of_ofIntelHex {text : List Byte} {image : Image}
    (h : Image.ofIntelHex text = .ok image) :
    Image.readRecords .empty 1 (splitLines text) = .ok image := by
  unfold Image.ofIntelHex at h
  split at h
  · next image' read =>
    split at h
    · cases h
    · cases h
      exact read
  · cases h

/-- There is no colon among blanks. -/
theorem colon_not_mem {bytes : List Byte} (blank : ∀ c ∈ Utf8.decode bytes, isBlank c = true) :
    58 ∉ bytes := by
  intro h
  have := blank _ (Utf8.mem_decode h (by decide))
  cases this

end Trainer51
