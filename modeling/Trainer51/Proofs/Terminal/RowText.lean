import Trainer51.Proofs.Listing.PlainText
import Trainer51.Terminal.Picture

/-!
# What a line of the listing shows

A row takes one line: two marks, the address, up to three bytes and the text, each in columns of its
own.

    the nine columns of the bytes                                          (getElem?_byteColumns)
    the columns of the whole line                                                (toList_rowText)
    a line with these characters shows its row                            (showsRow_of_rowText)
-/

namespace Trainer51

/-- A hexadecimal digit as it is shown. -/
def hexDigit (n : Nat) : String :=
  String.singleton ("0123456789ABCDEF".toList.getD (n % 16) ' ')

theorem hexDigit_eq (n : Nat) : hexDigit n = String.singleton (Hexadecimal.digit n) := by
  have table : ∀ n, n < 16 → "0123456789ABCDEF".toList.getD n ' ' = Hexadecimal.digit n := by
    decide
  unfold hexDigit
  rw [table _ (Nat.mod_lt _ (by decide)), Hexadecimal.digit_mod]

/-- What a line of `width` columns, with these cells, shows of a row. -/
structure ShowsRow (row : Row) (current selected focused : Bool) (width : Nat)
    (cell : Nat → Cell) : Prop where
  /-- The row of execution is marked. -/
  execution : 0 < width → (cell 0).symbol = if current then ">" else " "
  selection : 1 < width → (cell 1).symbol = if selected then "◆" else " "
  address : ∀ i < 4, 3 + i < width →
    (cell (3 + i)).symbol = hexDigit (row.address.toNat / 16 ^ (3 - i))
  colon : 7 < width → (cell 7).symbol = ":"
  high : ∀ i b, row.bytes[i]? = some b → 9 + 3 * i < width →
    (cell (9 + 3 * i)).symbol = hexDigit (b.toNat / 16)
  low : ∀ i b, row.bytes[i]? = some b → 10 + 3 * i < width →
    (cell (10 + 3 * i)).symbol = hexDigit b.toNat
  text : ∀ i c, row.text.toList[i]? = some c → 19 + i < width →
    (cell (19 + i)).symbol = String.singleton c
  /-- Between these, where there are fewer than three bytes, and after the text there is nothing. -/
  blank : ∀ k < width, k ∈ [2, 8, 11, 14, 17, 18] ∨ (9 + 3 * row.bytes.length ≤ k ∧ k < 19) ∨
    19 + row.text.toList.length ≤ k → (cell k).symbol = " "
  /-- The row of execution stands out by its colour, the selected one by its background. -/
  style : ∀ k < width, cell k =
    { symbol := (cell k).symbol
      fg := if current then .yellow else .reset
      bg := if selected then .blue else if focused then .black else .reset
      bold := current }

/-- A cell of such a line that a character of the text falls on. -/
theorem ShowsRow.symbol_eq {row : Row} {current selected focused : Bool} {width : Nat}
    {cell : Nat → Cell} (h : ShowsRow row current selected focused width cell) {i : Nat} {c : Char}
    (hc : row.text.toList[i]? = some c) (inside : 19 + i < width) {x : Cell}
    (hx : cell (19 + i) = x) : x.symbol = String.singleton c := by
  rw [← hx]
  exact h.text i c hc inside

namespace Terminal

/-! ## Columns -/

/-- The nine columns of up to three bytes. -/
def byteColumns (bytes : List Byte) : List Char :=
  (List.range 9).map fun k =>
    match bytes[k / 3]? with
    | some b =>
      if k % 3 = 0 then Hexadecimal.digit (b.toNat / 16)
      else if k % 3 = 1 then Hexadecimal.digit b.toNat
      else ' '
    | none => ' '

theorem toList_byte (b : Byte) :
    (Hexadecimal.byte b).toList =
      [Hexadecimal.digit (b.toNat / 16), Hexadecimal.digit b.toNat] :=
  String.toList_ofList

theorem toList_byteText {row : Row} (few : row.bytes.length ≤ 3) :
    (padRight 9 row.byteText).toList = byteColumns row.bytes := by
  have blank : " ".toList = [' '] := by simp
  unfold padRight Row.byteText
  rw [String.toList_ofList, ← String.length_toList, String.toList_intercalate, blank]
  match row.bytes, few with
  | [], _ => rfl
  | [a], _ =>
    simp only [List.map_cons, List.map_nil, toList_byte]
    rfl
  | [a, b], _ =>
    simp only [List.map_cons, List.map_nil, toList_byte]
    rfl
  | [a, b, c], _ =>
    simp only [List.map_cons, List.map_nil, toList_byte]
    rfl

/-- The columns in front of the text. -/
def headColumns (row : Row) (current selected : Bool) : List Char :=
  (if current then '>' else ' ') :: (if selected then '◆' else ' ') :: ' '
    :: (Hexadecimal.digits 4 row.address.toNat ++ ':' :: ' ' :: (byteColumns row.bytes ++ [' ']))

theorem toList_rowText {row : Row} (few : row.bytes.length ≤ 3) (current selected : Bool) :
    (rowText row current selected).toList =
      headColumns row current selected ++ row.text.toList := by
  have mark : (if current then ">" else " ").toList = [if current then '>' else ' '] := by
    cases current <;> simp
  have selection : (if selected then "◆" else " ").toList = [if selected then '◆' else ' '] := by
    cases selected <;> simp
  unfold rowText headColumns Hexadecimal.word
  simp only [String.toList_append, mark, selection, toList_byteText few, String.toList_ofList]
  simp

/-! ## The line -/

theorem plain_of_mem_byteColumns {bytes : List Byte} {c : Char} (h : c ∈ byteColumns bytes) :
    Plain c := by
  obtain ⟨k, -, rfl⟩ := List.mem_map.1 h
  split
  · split
    · exact plain_digit _
    · split
      · exact plain_digit _
      · decide
  · decide

theorem plainText_rowText {row : Row} (h : row.Listed) (current selected : Bool) :
    PlainText (rowText row current selected) := by
  have execution : Plain (if current then '>' else ' ') := by cases current <;> decide
  have selection : Plain (if selected then '◆' else ' ') := by cases selected <;> decide
  have blank : Plain ' ' := by decide
  have colon : Plain ':' := by decide
  have digits : ∀ c ∈ Hexadecimal.digits 4 row.address.toNat, Plain c := by
    rw [Hexadecimal.digits_four]
    simp [plain_digit]
  have bytes : ∀ c ∈ byteColumns row.bytes, Plain c := fun c => plain_of_mem_byteColumns
  unfold PlainText
  rw [toList_rowText h.length_bounds.2]
  simp only [headColumns, List.forall_mem_append, List.forall_mem_cons]
  exact ⟨⟨execution, selection, blank, digits, colon, blank, bytes, blank, nofun⟩, h.plainText⟩

theorem rowText_ne_empty {row : Row} (few : row.bytes.length ≤ 3) (current selected : Bool) :
    rowText row current selected ≠ "" := by
  intro empty
  have none := toList_rowText few current selected
  rw [empty] at none
  cases none

/-! ## What is in a column -/

section Columns

variable {row : Row} {current selected focused : Bool} {width k : Nat} {c : Char}

theorem getElem?_digits (n : Nat) : ∀ i < 4,
    (Hexadecimal.digits 4 n)[i]? = some (Hexadecimal.digit (n / 16 ^ (3 - i))) := by
  intro i hi
  rw [Hexadecimal.digits_four]
  match i, hi with
  | 0, _ =>
    show some (Hexadecimal.digit (n / 16 / 16 / 16)) = some (Hexadecimal.digit (n / 4096))
    rw [Nat.div_div_eq_div_mul, Nat.div_div_eq_div_mul]
  | 1, _ =>
    show some (Hexadecimal.digit (n / 16 / 16)) = some (Hexadecimal.digit (n / 256))
    rw [Nat.div_div_eq_div_mul]
  | 2, _ => rfl
  | 3, _ =>
    show some (Hexadecimal.digit n) = some (Hexadecimal.digit (n / 1))
    rw [Nat.div_one]

theorem getElem?_byteColumns (bytes : List Byte) (hk : k < 9) :
    (byteColumns bytes)[k]? = some (match bytes[k / 3]? with
      | some b =>
        if k % 3 = 0 then Hexadecimal.digit (b.toNat / 16)
        else if k % 3 = 1 then Hexadecimal.digit b.toNat
        else ' '
      | none => ' ') := by
  unfold byteColumns
  rw [List.getElem?_map, List.getElem?_range hk]
  rfl

/-- Between two bytes, and where there is no byte, there is a blank. -/
theorem getElem?_byteColumns_gap {bytes : List Byte} (hk : k < 9)
    (h : k % 3 = 2 ∨ bytes[k / 3]? = none) : (byteColumns bytes)[k]? = some ' ' := by
  rw [getElem?_byteColumns bytes hk]
  obtain gap | absent := h
  · rw [gap]
    cases bytes[k / 3]? <;> rfl
  · rw [absent]

theorem getElem?_headColumns_address {i : Nat} (hi : i < 4) :
    (headColumns row current selected)[3 + i]? =
      some (Hexadecimal.digit (row.address.toNat / 16 ^ (3 - i))) := by
  have inside : i < (Hexadecimal.digits 4 row.address.toNat).length := hi
  rw [Nat.add_comm, ← getElem?_digits _ i hi]
  exact List.getElem?_append_left inside

theorem getElem?_headColumns_bytes (hk : k < 9) :
    (headColumns row current selected)[9 + k]? = (byteColumns row.bytes)[k]? := by
  have inside : k < (byteColumns row.bytes).length := by simpa [byteColumns] using hk
  rw [Nat.add_comm]
  exact List.getElem?_append_left inside

theorem length_headColumns : (headColumns row current selected).length = 19 := rfl

/-- The symbol that a text has in a column, a blank if it is shorter. -/
def symbolAt (text : String) (column : Nat) : String :=
  (text.toList[column]?.map String.singleton).getD " "

theorem symbolAt_head (few : row.bytes.length ≤ 3)
    (h : (headColumns row current selected)[k]? = some c) :
    symbolAt (rowText row current selected) k = String.singleton c := by
  have inside : k < (headColumns row current selected).length :=
    (List.getElem?_eq_some_iff.1 h).1
  unfold symbolAt
  rw [toList_rowText few, List.getElem?_append_left inside, h]
  rfl

theorem symbolAt_bytes (few : row.bytes.length ≤ 3) (hk : k < 9)
    (h : (byteColumns row.bytes)[k]? = some c) :
    symbolAt (rowText row current selected) (9 + k) = String.singleton c :=
  symbolAt_head few (by rw [getElem?_headColumns_bytes hk, h])

theorem symbolAt_text (few : row.bytes.length ≤ 3) (i : Nat) :
    symbolAt (rowText row current selected) (19 + i) =
      (row.text.toList[i]?.map String.singleton).getD " " := by
  unfold symbolAt
  rw [toList_rowText few, List.getElem?_append_right (by rw [length_headColumns]; omega),
    length_headColumns, Nat.add_sub_cancel_left]

theorem symbolAt_blank (few : row.bytes.length ≤ 3)
    (h : k ∈ [2, 8, 11, 14, 17, 18] ∨ (9 + 3 * row.bytes.length ≤ k ∧ k < 19) ∨
      19 + row.text.toList.length ≤ k) : symbolAt (rowText row current selected) k = " " := by
  have last : symbolAt (rowText row current selected) 18 = " " := symbolAt_head few (c := ' ') rfl
  have gap (j : Nat) (hj : j < 9) (h : j % 3 = 2 ∨ row.bytes[j / 3]? = none) :
      symbolAt (rowText row current selected) (9 + j) = " " :=
    symbolAt_bytes few hj (getElem?_byteColumns_gap hj h)
  obtain between | ⟨above, below⟩ | after := h
  · simp only [List.mem_cons, List.not_mem_nil, or_false] at between
    obtain rfl | rfl | rfl | rfl | rfl | rfl := between
    · exact symbolAt_head few (c := ' ') rfl
    · exact symbolAt_head few (c := ' ') rfl
    · exact gap 2 (by decide) (.inl rfl)
    · exact gap 5 (by decide) (.inl rfl)
    · exact gap 8 (by decide) (.inl rfl)
    · exact last
  · obtain rfl | inside := Nat.eq_or_lt_of_le (Nat.le_of_lt_succ below)
    · exact last
    · obtain ⟨j, rfl⟩ := Nat.exists_eq_add_of_le (Nat.le_trans (Nat.le_add_right 9 _) above)
      exact gap j (by omega) (.inr (List.getElem?_eq_none (by omega)))
  · obtain ⟨i, rfl⟩ := Nat.exists_eq_add_of_le (Nat.le_trans (Nat.le_add_right 19 _) after)
    rw [symbolAt_text few, List.getElem?_eq_none (by omega)]
    rfl

end Columns

/-- A line with the characters and the style of a row shows it. -/
theorem showsRow_of_rowText {row : Row} (few : row.bytes.length ≤ 3)
    {current selected focused : Bool} {width : Nat} {cell : Nat → Cell}
    (h : ∀ k < width, cell k = { Cell.blank.styled (rowStyle current selected focused) with
      symbol := symbolAt (rowText row current selected) k }) :
    ShowsRow row current selected focused width cell := by
  have symbol (k : Nat) (hk : k < width) :
      (cell k).symbol = symbolAt (rowText row current selected) k := by
    rw [h k hk]
  constructor
  case execution =>
    intro inside
    rw [symbol 0 inside, symbolAt_head few rfl]
    cases current <;> rfl
  case selection =>
    intro inside
    rw [symbol 1 inside, symbolAt_head few rfl]
    cases selected <;> rfl
  case address =>
    intro i hi inside
    rw [symbol _ inside, symbolAt_head few (getElem?_headColumns_address hi), hexDigit_eq]
  case colon =>
    intro inside
    rw [symbol 7 inside, symbolAt_head few (c := ':') rfl]
    rfl
  case high =>
    intro i b hb inside
    have third : i < 3 := Nat.lt_of_lt_of_le (List.getElem?_eq_some_iff.1 hb).1 few
    have column : (byteColumns row.bytes)[3 * i]? = some (Hexadecimal.digit (b.toNat / 16)) := by
      rw [getElem?_byteColumns _ (by omega), Nat.mul_div_cancel_left i (by decide), hb,
        Nat.mul_mod_right]
      rfl
    rw [symbol _ inside, symbolAt_bytes few (by omega) column, hexDigit_eq]
  case low =>
    intro i b hb inside
    have third : i < 3 := Nat.lt_of_lt_of_le (List.getElem?_eq_some_iff.1 hb).1 few
    have column : (byteColumns row.bytes)[1 + 3 * i]? = some (Hexadecimal.digit b.toNat) := by
      have quotient : (1 + 3 * i) / 3 = i := by omega
      have rest : (1 + 3 * i) % 3 = 1 := by omega
      rw [getElem?_byteColumns _ (by omega), quotient, hb, rest]
      rfl
    have place : 10 + 3 * i = 9 + (1 + 3 * i) := by omega
    rw [symbol _ inside, place, symbolAt_bytes few (by omega) column, hexDigit_eq]
  case text =>
    intro i c hc inside
    rw [symbol _ inside, symbolAt_text few, hc]
    rfl
  case blank =>
    intro k inside outside
    rw [symbol k inside, symbolAt_blank few outside]
  case style =>
    intro k inside
    rw [symbol k inside, h k inside]
    cases current <;> cases selected <;> cases focused <;> rfl

end Terminal

end Trainer51
