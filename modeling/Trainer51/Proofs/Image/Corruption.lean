import Trainer51.Proofs.Image.Acceptance
import Trainer51.Proofs.Image.Lines

/-!
# A changed digit pair is caught on its line

The count of a record is compared with the bytes that are there, and then their sum is taken, before
anything is made of the type, the address or the payload.  So a record with one byte changed is
never taken for another record, and since the records above it are read as before the fault is
reported on its line.

    a record with another count is truncated, with another byte fails its checksum   (ofBytes_set)
    Spells cs bs → cs with another pair spells bs with another byte              (Spells.exchange)
    a line at fault makes the text fail there                                   (readRecords_fault)
    all of it for a pair of a text                                         (changed_pair_is_caught)
-/

namespace Trainer51

/-! ## Sums of bytes -/

theorem foldl_add_eq (bs : List Byte) (a : Byte) :
    bs.foldl (· + ·) a = a + bs.foldl (· + ·) 0 := by
  induction bs generalizing a with
  | nil => exact (UInt8.add_zero a).symm
  | cons b bs ih =>
    rw [List.foldl_cons, List.foldl_cons, ih (a + b), ih (0 + b), UInt8.zero_add, UInt8.add_assoc]

theorem sum_append_cons (front back : List Byte) (b : Byte) :
    (front ++ b :: back).foldl (· + ·) 0 =
      b + (front.foldl (· + ·) 0 + back.foldl (· + ·) 0) := by
  rw [List.foldl_append, List.foldl_cons, foldl_add_eq, UInt8.add_comm _ b, UInt8.add_assoc]

/-- Another byte in the place of one makes another sum. -/
theorem sum_set_ne {bs : List Byte} {k : Nat} {b : Byte} (hk : k < bs.length) (other : b ≠ bs[k]) :
    (bs.set k b).foldl (· + ·) 0 ≠ bs.foldl (· + ·) 0 := by
  have cut : bs = bs.take k ++ bs[k] :: bs.drop (k + 1) := by simp
  have changed : bs.set k b = bs.take k ++ b :: bs.drop (k + 1) := by
    rw [List.set_eq_take_append_cons_drop, if_pos hk]
  intro same
  rw [changed, sum_append_cons] at same
  conv at same => rhs; rw [cut, sum_append_cons]
  exact other ((UInt8.add_left_inj _).1 same)

/-! ## Records -/

namespace Record

theorem ofBytes_of_count_ne {count : Byte} {rest : List Byte} (header : 3 ≤ rest.length)
    (h : rest.length ≠ count.toNat + 4) : ofBytes (count :: rest) = .error .truncated := by
  match rest, header with
  | high :: low :: kind :: rest, _ =>
    have other : rest.length ≠ count.toNat + 1 := by simpa using h
    show (if rest.length ≠ count.toNat + 1 then _ else _) = _
    rw [if_pos other]

/-- The checksum that is expected is the one that would make the sum zero. -/
theorem ofBytes_of_sum_ne {count : Byte} {rest : List Byte} (length : rest.length = count.toNat + 4)
    (sum : (count :: rest).foldl (· + ·) 0 ≠ 0) :
    ∃ expected found, ofBytes (count :: rest) = .error (.checksum expected found) ∧
      (count :: rest).getLast? = some found ∧
      ((count :: rest).dropLast ++ [expected]).foldl (· + ·) 0 = 0 := by
  match rest, length with
  | high :: low :: kind :: rest, length =>
    have size : rest.length = count.toNat + 1 := by simpa using length
    rcases List.eq_nil_or_concat rest with rfl | ⟨payload, found, rfl⟩
    · cases size
    · rw [List.concat_eq_append] at *
      generalize whole : count :: high :: low :: kind :: (payload ++ [found]) = bs at sum
      have cut : bs = (count :: high :: low :: kind :: payload) ++ [found] := whole.symm
      refine ⟨found - bs.foldl (· + ·) 0, found, ?_, ?_, ?_⟩
      · rw [← whole] at sum ⊢
        show (if (payload ++ [found]).length ≠ count.toNat + 1 then _
          else if _ ≠ (0 : Byte) then _ else _) = _
        rw [if_neg (Decidable.not_not.2 size), if_pos sum, List.getLastD_concat]
      · rw [cut, List.getLast?_concat]
      · rw [cut, List.dropLast_concat, sum_append_cons, sum_append_cons]
        grind

/-- **A changed byte is noticed.**  A record with another count is truncated; with any other byte
changed it fails its checksum. -/
theorem ofBytes_set (r : HexRecord) {k : Nat} (hk : k < r.bytes.length) {b : Byte}
    (other : b ≠ r.bytes[k]) :
    (k = 0 → ofBytes (r.bytes.set k b) = .error .truncated) ∧
      (k ≠ 0 → ∃ expected found,
        ofBytes (r.bytes.set k b) = .error (.checksum expected found) ∧
          (r.bytes.set k b).getLast? = some found ∧
          ((r.bytes.set k b).dropLast ++ [expected]).foldl (· + ·) 0 = 0) := by
  have sum : (r.bytes.set k b).foldl (· + ·) 0 ≠ 0 := by
    have zero : r.bytes.foldl (· + ·) 0 = 0 := (sum_bytes_eq_zero_iff _ _).2 rfl
    have := sum_set_ne hk other
    rwa [zero] at this
  obtain ⟨count, rest, whole, length⟩ :
      ∃ count rest, r.bytes = count :: rest ∧ rest.length = count.toNat + 4 := by
    refine ⟨_, _, rfl, ?_⟩
    have short := r.short
    rw [UInt8.toNat_ofNat']
    simp only [List.append_eq, List.length_append, List.length_cons, List.length_nil]
    omega
  simp only [whole] at hk other sum ⊢
  cases k with
  | zero =>
    refine ⟨fun _ => ?_, fun h => absurd rfl h⟩
    rw [List.set_cons_zero]
    refine ofBytes_of_count_ne (by omega) fun same => other ?_
    rw [List.getElem_cons_zero, ← UInt8.toNat_inj]
    omega
  | succ k =>
    refine ⟨nofun, fun _ => ?_⟩
    rw [List.set_cons_succ] at sum ⊢
    exact ofBytes_of_sum_ne (by rw [List.length_set, length]) sum

/-! ## Digits -/

theorem Spells.ofLine_eq {cs : List Char} {bs : List Byte} (h : Spells cs bs) :
    ofLine (':' :: cs) = ofBytes bs := by
  simp only [ofLine, bytes_eq_ok_iff.2 (spells_iff.1 h).1]

/-- The first byte is spelled by the first pair. -/
theorem Spells.exists_pair {cs : List Char} {b : Byte} {bs : List Byte} (h : Spells cs (b :: bs)) :
    ∃ high low rest, cs = high :: low :: rest ∧ Spells [high, low] [b] ∧ Spells rest bs := by
  match cs, h with
  | [], h | [_], h => simp [Spells, Hexadecimal.digits] at h
  | high :: low :: rest, h => exact ⟨high, low, rest, rfl, (spells_cons _ _ _ _ _).1 h⟩

/-- Another pair spells another byte. -/
theorem Spells.exchange {cs : List Char} {bs : List Byte} (h : Spells cs bs) {k : Nat}
    (hk : k < bs.length) {high low : Char} {b : Byte} (pair : Spells [high, low] [b]) :
    2 * k + 2 ≤ cs.length ∧
      Spells (cs.take (2 * k) ++ [high, low] ++ cs.drop (2 * k + 2)) (bs.set k b) := by
  induction k generalizing cs bs with
  | zero =>
    cases bs with
    | nil => cases hk
    | cons x bs =>
      obtain ⟨c, d, rest, rfl, -, tail⟩ := h.exists_pair
      refine ⟨by simp, ?_⟩
      exact (spells_cons _ _ _ _ _).2 ⟨pair, tail⟩
  | succ k ih =>
    cases bs with
    | nil => cases hk
    | cons x bs =>
      obtain ⟨c, d, rest, rfl, first, tail⟩ := h.exists_pair
      obtain ⟨room, spelled⟩ := ih tail (Nat.lt_of_succ_lt_succ hk)
      refine ⟨by simp only [List.length_cons]; omega, ?_⟩
      exact (spells_cons _ _ _ _ _).2 ⟨first, spelled⟩

end Record

/-! ## Pairs of a text -/

/-- `text` with the bytes `new` in the place of as many from position `i` on. -/
def overwrite (text : List Byte) (i : Nat) (new : List Byte) : List Byte :=
  text.take i ++ new ++ text.drop (i + new.length)

/-- Where in a text the digit pair number `k` of the record on line `l` begins, both counted from
zero: a colon stands in front of the first one. -/
def pairStart (text : List Byte) (l k : Nat) : Nat :=
  lineStart text l + ((splitLines text)[l]?.getD []).idxOf 58 + 1 + 2 * k

theorem overwrite_append (front old new back : List Byte) (same : new.length = old.length) :
    overwrite (front ++ old ++ back) front.length new = front ++ new ++ back := by
  unfold overwrite
  rw [same, List.append_assoc front old back, List.take_left', ← List.append_assoc front old back,
    List.drop_left' List.length_append]
  rfl

theorem getElem?_throughEnd {lines : List (List Char)} {i : Nat} {line : List Char}
    (h : (throughEnd lines)[i]? = some line) : lines[i]? = some line := by
  induction lines generalizing i with
  | nil => exact h
  | cons first rest ih =>
    unfold throughEnd at h
    split at h
    · cases i with
      | zero => exact h
      | succ i => cases h
    · cases i with
      | zero => exact h
      | succ i => exact ih h

/-- **A pair can be exchanged.**  A pair of a record stands where `pairStart` says, and with another
one there the record on this line has that pair, while all other lines are as they were. -/
theorem exists_pairText {text : List Byte} {l k : Nat} {cs : List Char}
    (h : (linesRead text)[l]? = some (':' :: cs)) (ascii : ∀ c ∈ cs, c.toNat < 128)
    (room : 2 * k + 2 ≤ cs.length) :
    ∃ front back, text = front ++ asciiBytes ((cs.drop (2 * k)).take 2) ++ back ∧
      front.length = pairStart text l k ∧
      ∀ high low : Char,
        (∀ c ∈ ':' :: (cs.take (2 * k) ++ [high, low] ++ cs.drop (2 * k + 2)),
          c.toNat < 128 ∧ isBlank c = false) →
        ∃ line, trimmed line = ':' :: (cs.take (2 * k) ++ [high, low] ++ cs.drop (2 * k + 2)) ∧
          splitLines (front ++ asciiBytes [high, low] ++ back) = (splitLines text).set l line := by
  have found := getElem?_throughEnd h
  rw [List.getElem?_map, Option.map_eq_some_iff] at found
  obtain ⟨line, hl, read⟩ := found
  obtain ⟨above, below, cutText, start, exchange⟩ := exists_line hl
  obtain ⟨before, after, rfl, hb, ha⟩ := exists_recordText read ascii
  have noFeed := ne_lineFeed_of_mem (List.mem_of_getElem? hl)
  have cutDigits : cs = cs.take (2 * k) ++ (cs.drop (2 * k)).take 2 ++ cs.drop (2 * k + 2) := by
    rw [← List.drop_drop, List.append_assoc, List.take_append_drop, List.take_append_drop]
  refine ⟨above ++ before ++ asciiBytes (':' :: cs.take (2 * k)),
    asciiBytes (cs.drop (2 * k + 2)) ++ after ++ below, ?_, ?_, ?_⟩
  · rw [cutText]
    conv => lhs; rw [cutDigits]
    simp only [asciiBytes, List.map_append, List.map_cons, List.append_assoc, List.cons_append]
  · have colon : (before ++ asciiBytes (':' :: cs) ++ after).idxOf 58 = before.length := by
      rw [List.append_assoc, List.idxOf_append, if_neg (colon_not_mem hb)]
      exact Nat.zero_add _
    unfold pairStart
    rw [hl, Option.getD_some, colon, ← start]
    simp only [asciiBytes, List.length_append, List.length_map, List.length_cons, List.length_take]
    omega
  · intro high low plain
    refine ⟨before ++ asciiBytes (':' :: (cs.take (2 * k) ++ [high, low] ++ cs.drop (2 * k + 2))) ++
      after, trimmed_recordText hb plain ha, ?_⟩
    rw [← exchange]
    · simp [asciiBytes]
    · intro b hb
      rcases List.mem_append.1 hb with hb | hb
      · rcases List.mem_append.1 hb with hb | hb
        · exact noFeed b (by simp [hb])
        · exact recordText_ne_lineFeed plain b hb
      · exact noFeed b (by simp [hb])

/-! ## Texts -/

namespace Image

theorem readRecords_wrong {line : List Byte} {cs : List Char} {fault : RecordFault}
    (text : trimmed line = ':' :: cs) (wrong : Record.ofLine (':' :: cs) = .error fault)
    (image : Image) (n : Nat) (rest : List (List Byte)) :
    readRecords image n (line :: rest) = .error (.record n fault) := by
  unfold trimmed at text
  rw [readRecords, text, if_neg (by simp), wrong]

/-- The digits on a line that is read are those of a record. -/
theorem exists_record {image image' : Image} {n : Nat} {lines : List (List Byte)}
    (h : readRecords image n lines = .ok image') {cs : List Char} {bs : List Byte}
    (line : ':' :: cs ∈ throughEnd (lines.map trimmed)) (digits : Record.Digits cs bs) :
    ∃ r : HexRecord, bs = r.bytes := by
  rcases lines_of_readRecords h _ line with blank | ⟨r, _, same, digits'⟩
  · cases blank
  · cases same
    have one := (Record.bytes_eq_ok_iff.2 digits).symm.trans (Record.bytes_eq_ok_iff.2 digits')
    exact ⟨r, Except.ok.inj one⟩

/-- The lines above a line at fault are read as they were, and the fault is reported there. -/
theorem readRecords_fault {image image' : Image} {n i : Nat} {lines : List (List Byte)}
    {line : List Byte} {old cs : List Char} {fault : RecordFault}
    (h : readRecords image n lines = .ok image')
    (read : (throughEnd (lines.map trimmed))[i]? = some old) (text : trimmed line = ':' :: cs)
    (wrong : Record.ofLine (':' :: cs) = .error fault) :
    readRecords image n (lines.set i line) = .error (.record (n + i) fault) := by
  induction lines generalizing image n i with
  | nil => cases read
  | cons first rest ih =>
    cases i with
    | zero => exact readRecords_wrong text wrong image n rest
    | succ i =>
      have next : n + (i + 1) = n + 1 + i := by omega
      rw [List.map_cons] at read
      rw [List.set_cons_succ, next]
      obtain ⟨blank, more⟩ | ⟨r, record, more⟩ := readRecords_cases h
      · rw [blank] at read
        rw [readRecords_blank blank]
        exact ih more read
      · rw [throughEnd_record record] at read
        rw [readRecords_record record]
        split at read
        · cases read
        · next goes_on =>
          rw [if_neg goes_on]
          exact ih (more goes_on) read

/-- **Every changed pair is caught on its line.**  The pair number `k` of the record on line `l`, up
to the first end-of-file record, stands at `pairStart`.  Overwritten there with two hexadecimal
digits of another byte the text is refused on line `l`, which messages count from one: as truncated
when the pair is the count, and else for its checksum, where the one expected is the one that would
make the sum of the changed record zero. -/
theorem changed_pair_is_caught {text : List Byte} {image : Image}
    (accepted : ofIntelHex text = .ok image) {l : Nat} {cs : List Char}
    (line : (linesRead text)[l]? = some (':' :: cs)) {bs : List Byte}
    (spelled : Record.Spells cs bs) {k : Nat} (hk : k < bs.length) {high low : Char} {b : Byte}
    (pair : Record.Spells [high, low] [b]) (other : b ≠ bs[k]) :
    let start := pairStart text l k
    let changed := overwrite text start (asciiBytes [high, low])
    (text.drop start).take 2 = asciiBytes ((cs.drop (2 * k)).take 2) ∧
      (k = 0 → ofIntelHex changed = .error (.record (l + 1) .truncated)) ∧
      (k ≠ 0 → ∃ expected found,
        ofIntelHex changed = .error (.record (l + 1) (.checksum expected found)) ∧
          (bs.set k b).getLast? = some found ∧
          ((bs.set k b).dropLast ++ [expected]).foldl (· + ·) 0 = 0) := by
  intro start changed
  have read := readRecords_of_ofIntelHex accepted
  have digits := (Record.spells_iff.1 spelled).1
  obtain ⟨room, respelled⟩ := spelled.exchange hk pair
  obtain ⟨front, back, cut, length, exchange⟩ := exists_pairText line digits.ascii room
  obtain ⟨line', text', lines'⟩ := exchange high low (plain_of_spells respelled)
  obtain ⟨r, rfl⟩ := exists_record read (List.mem_of_getElem? line) digits
  have old : (asciiBytes ((cs.drop (2 * k)).take 2)).length = 2 := by
    simp only [asciiBytes, List.length_map, List.length_take, List.length_drop]
    omega
  have fails {fault : RecordFault} (h : Record.ofBytes (r.bytes.set k b) = .error fault) :
      ofIntelHex changed = .error (.record (l + 1) fault) := by
    have wrong : Record.ofLine (':' :: (cs.take (2 * k) ++ [high, low] ++ cs.drop (2 * k + 2))) =
        .error fault := by
      rw [respelled.ofLine_eq, h]
    have changed_eq : changed = front ++ asciiBytes [high, low] ++ back := by
      show overwrite text (pairStart text l k) _ = _
      rw [← length]
      conv => lhs; rw [cut]
      exact overwrite_append front _ _ back old.symm
    unfold ofIntelHex
    rw [changed_eq, lines', readRecords_fault read line text' wrong, Nat.add_comm]
  obtain ⟨count, rest⟩ := Record.ofBytes_set r hk other
  refine ⟨?_, fun h => fails (count h), fun h => ?_⟩
  · show (text.drop (pairStart text l k)).take 2 = _
    rw [← length]
    conv => lhs; rw [cut]
    rw [List.append_assoc, List.drop_left', List.take_left' old]
    rfl
  · obtain ⟨expected, found, h, last, zero⟩ := rest h
    exact ⟨expected, found, fails h, last, zero⟩

/-- Two data records, the second one indented, and the end of the file. -/
def twoRecordsText : List Byte :=
  ":03000000020100FA\n\t:0100030055A7\r\n:00000001FF\n".toUTF8.data.toList

/-- A data record that is changed to look like the end of the file is caught. -/
theorem changed_pair_is_caught_kind :
    (linesRead twoRecordsText)[1]? = some (':' :: "0100030055A7".toList) ∧
      Record.Spells "0100030055A7".toList [0x01, 0x00, 0x03, 0x00, 0x55, 0xA7] ∧
      pairStart twoRecordsText 1 3 = 26 ∧
      ofIntelHex (overwrite twoRecordsText 26 (asciiBytes ['0', '1'])) =
        .error (.record 2 (.checksum 0xA6 0xA7)) := by
  have accepted : ofIntelHex twoRecordsText =
      .ok ((empty.write 0 [0x02, 0x01, 0x00]).write 3 [0x55]) := rfl
  have line : (linesRead twoRecordsText)[1]? = some (':' :: "0100030055A7".toList) := rfl
  have spelled : Record.Spells "0100030055A7".toList [0x01, 0x00, 0x03, 0x00, 0x55, 0xA7] := by
    decide
  have pair : Record.Spells ['0', '1'] [0x01] := by decide
  obtain ⟨-, -, rest⟩ := changed_pair_is_caught accepted line spelled (show 3 < 6 by decide) pair
    (by decide)
  obtain ⟨expected, found, caught, last, zero⟩ := rest (by decide)
  cases last
  have expected_eq := (Record.sum_bytes_eq_zero_iff _ _).1 zero
  refine ⟨line, spelled, rfl, ?_⟩
  rw [show expected = 0xA6 from expected_eq] at caught
  exact caught

end Image

end Trainer51
