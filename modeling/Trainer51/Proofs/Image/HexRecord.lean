import Trainer51.Image.Record
import Trainer51.Proofs.Text.Hexadecimal

/-!
# The records of an Intel HEX file

A record is known by its address, its type and its payload.  Its bytes follow from them, and a line
that is read has them as digit pairs behind a colon.  The pairs are read a little more generously
than they are written: a plus sign may stand for the first digit.

    bytes cs = .ok bs ↔ Digits cs bs                                       (bytes_eq_ok_iff)
    Spells cs bs ↔ Digits cs bs ∧ '+' ∉ cs                                 (spells_iff)
    ofBytes bs = .ok m ↔ bs are the bytes of a record that asks for m      (ofBytes_eq_ok_iff)
    ofLine line = .ok m ↔ line is a colon and digits of such a record      (ofLine_eq_ok_iff)
-/

namespace Trainer51

namespace Record

/-! ## Digit pairs -/

/-- Digits of either case spell bytes. -/
def Spells (cs : List Char) (bs : List Byte) : Prop :=
  cs.map Char.toUpper = bs.flatMap fun b => Hexadecimal.digits 2 b.toNat

instance (cs : List Char) (bs : List Byte) : Decidable (Spells cs bs) :=
  inferInstanceAs (Decidable (_ = _))

/-- Bytes at their full width spell themselves. -/
theorem spells_digits (bs : List Byte) :
    Spells (bs.flatMap fun b => Hexadecimal.digits 2 b.toNat) bs := by
  unfold Spells
  rw [List.map_flatMap]
  simp [Hexadecimal.digits, Hexadecimal.toUpper_digit]

/-- Digit pairs as they are read. -/
inductive Digits : List Char → List Byte → Prop where
  | nil : Digits [] []
  | pair {high low : Char} {b : Byte} {cs : List Char} {bs : List Byte}
      (spelled : Spells [high, low] [b]) (rest : Digits cs bs) :
      Digits (high :: low :: cs) (b :: bs)
  /-- A plus sign is read as a zero. -/
  | signed {low : Char} {b : Byte} {cs : List Char} {bs : List Byte}
      (spelled : Spells ['0', low] [b]) (rest : Digits cs bs) :
      Digits ('+' :: low :: cs) (b :: bs)

/-- One byte is spelled by its two digits. -/
theorem spells_pair_iff (high low : Char) (b : Byte) :
    Spells [high, low] [b] ↔
      digit? high = some (b.toNat / 16) ∧ digit? low = some (b.toNat % 16) := by
  have lt := b.toNat_lt
  have front : b.toNat / 16 % 16 = b.toNat / 16 := Nat.mod_eq_of_lt (by omega)
  have pair : Spells [high, low] [b] ↔
      high.toUpper = Hexadecimal.digit (b.toNat / 16) ∧
        low.toUpper = Hexadecimal.digit b.toNat := by
    simp [Spells, Hexadecimal.digits]
  rw [pair, Hexadecimal.toUpper_eq_digit_iff, Hexadecimal.toUpper_eq_digit_iff, front]

theorem spells_cons (high low : Char) (cs : List Char) (b : Byte) (bs : List Byte) :
    Spells (high :: low :: cs) (b :: bs) ↔ Spells [high, low] [b] ∧ Spells cs bs := by
  simp [Spells, Hexadecimal.digits, and_assoc]

theorem isSome_digit?_of_spells {cs : List Char} {bs : List Byte} (h : Spells cs bs) {c : Char}
    (hc : c ∈ cs) : (digit? c).isSome := by
  have upper := List.mem_map_of_mem (f := Char.toUpper) hc
  rw [h, List.mem_flatMap] at upper
  obtain ⟨b, -, hd⟩ := upper
  have : c.toUpper = Hexadecimal.digit (b.toNat / 16) ∨ c.toUpper = Hexadecimal.digit b.toNat := by
    simpa [Hexadecimal.digits] using hd
  rcases this with e | e <;> rw [(Hexadecimal.toUpper_eq_digit_iff _ _).1 e] <;> rfl

theorem pair?_eq_some_iff {high : Char} (h : high ≠ '+') (low : Char) (b : Byte) :
    pair? high low = some b ↔ Spells [high, low] [b] := by
  have lt := b.toNat_lt
  rw [spells_pair_iff]
  unfold pair?
  rw [if_neg h]
  cases hh : digit? high with
  | none => simp
  | some m =>
    cases hl : digit? low with
    | none => simp
    | some n =>
      have hm := Hexadecimal.digit?_lt hh
      have hn := Hexadecimal.digit?_lt hl
      simp only [Option.some.injEq, ← UInt8.toNat_inj, UInt8.toNat_ofNat']
      omega

theorem pair?_plus (low : Char) : pair? '+' low = pair? '0' low := by
  have zero : digit? '0' = some 0 := by decide
  unfold pair?
  rw [if_pos rfl, if_neg (by decide), zero]
  cases digit? low with
  | none => rfl
  | some n => simp

theorem digits_of_pairsAfter? {read : List Byte} {cs : List Char} {bs : List Byte}
    (h : pairsAfter? read cs = some bs) : ∃ tail, bs = read.reverse ++ tail ∧ Digits cs tail := by
  induction read, cs using pairsAfter?.induct with
  | case1 read =>
    cases h
    exact ⟨[], (List.append_nil _).symm, .nil⟩
  | case2 read high low rest b hb ih =>
    rw [pairsAfter?, hb] at h
    obtain ⟨tail, rfl, digits⟩ := ih h
    refine ⟨b :: tail, by simp, ?_⟩
    by_cases plus : high = '+'
    · subst plus
      rw [pair?_plus] at hb
      exact .signed ((pair?_eq_some_iff (by decide) low b).1 hb) digits
    · exact .pair ((pair?_eq_some_iff plus low b).1 hb) digits
  | case3 read high low rest hb =>
    rw [pairsAfter?, hb] at h
    cases h
  | case4 => cases h

theorem pairsAfter?_of_digits {cs : List Char} {bs : List Byte} (h : Digits cs bs)
    (read : List Byte) : pairsAfter? read cs = some (read.reverse ++ bs) := by
  induction h generalizing read with
  | nil => simp [pairsAfter?]
  | @pair high low b cs bs spelled rest ih =>
    have plus : high ≠ '+' := by
      rintro rfl
      have : digit? '+' = none := by decide
      rw [spells_pair_iff, this] at spelled
      cases spelled.1
    rw [pairsAfter?, (pair?_eq_some_iff plus low b).2 spelled]
    simpa using ih (b :: read)
  | @signed low b cs bs spelled rest ih =>
    rw [pairsAfter?, pair?_plus, (pair?_eq_some_iff (by decide) low b).2 spelled]
    simpa using ih (b :: read)

namespace Digits

variable {cs : List Char} {bs : List Byte}

theorem length (h : Digits cs bs) : cs.length = 2 * bs.length := by
  induction h with
  | nil => rfl
  | pair _ _ ih | signed _ _ ih =>
    simp only [List.length_cons, ih]
    omega

theorem ascii (h : Digits cs bs) : ∀ c ∈ cs, c.toNat < 128 := by
  have digit {c : Char} {n : Nat} (hc : digit? c = some n) : c.toNat < 128 := by
    refine Nat.not_le.1 fun le => ?_
    rw [(Hexadecimal.digit?_beyond le).1] at hc
    cases hc
  induction h with
  | nil => simp
  | pair spelled _ ih =>
    obtain ⟨high, low⟩ := (spells_pair_iff _ _ _).1 spelled
    simpa using ⟨digit high, digit low, ih⟩
  | signed spelled _ ih =>
    obtain ⟨-, low⟩ := (spells_pair_iff _ _ _).1 spelled
    simpa using ⟨digit low, ih⟩

end Digits

theorem encodedSize_of_ascii {cs : List Char} (h : ∀ c ∈ cs, c.toNat < 128) :
    encodedSize cs = cs.length := by
  have sum : ∀ n, cs.foldl (fun n c => n + c.utf8Size) n = n + cs.length := by
    induction cs with
    | nil => exact fun n => rfl
    | cons c cs ih =>
      intro n
      have small : c.val.toNat ≤ (127 : UInt32).toNat := Nat.le_of_lt_succ (h c List.mem_cons_self)
      have one : c.utf8Size = 1 := Char.utf8Size_eq_one_iff.2 small
      rw [List.foldl_cons, ih fun d hd => h d (List.mem_cons_of_mem c hd), one, List.length_cons]
      omega
  rw [encodedSize, sum, Nat.zero_add]

theorem bytes_eq_ok_iff {cs : List Char} {bs : List Byte} : bytes cs = .ok bs ↔ Digits cs bs := by
  constructor
  · intro h
    unfold bytes at h
    split at h
    · cases h
    · split at h
      · cases h
      · split at h
        · next read =>
          cases h
          obtain ⟨tail, rfl, digits⟩ := digits_of_pairsAfter? read
          exact digits
        · cases h
  · intro h
    have even : encodedSize cs % 2 = 0 := by
      rw [encodedSize_of_ascii h.ascii, h.length]
      omega
    have ascii : cs.any (127 < ·.toNat) = false := by
      rw [List.any_eq_false]
      intro c hc
      have := h.ascii c hc
      simp only [decide_eq_true_eq]
      omega
    unfold bytes
    rw [if_neg (by omega), ascii, pairsAfter?_of_digits h]
    rfl

/-- Without plus signs the pairs that are read are those that spell the bytes. -/
theorem spells_iff {cs : List Char} {bs : List Byte} : Spells cs bs ↔ Digits cs bs ∧ '+' ∉ cs := by
  constructor
  · intro h
    constructor
    · induction bs generalizing cs with
      | nil =>
        cases List.map_eq_nil_iff.1 h
        exact .nil
      | cons b bs ih =>
        match cs, h with
        | [], h | [_], h => simp [Spells, Hexadecimal.digits] at h
        | high :: low :: cs, h =>
          obtain ⟨spelled, rest⟩ := (spells_cons high low cs b bs).1 h
          exact .pair spelled (ih rest)
    · intro plus
      have := isSome_digit?_of_spells h plus
      revert this
      decide
  · rintro ⟨digits, plus⟩
    induction digits with
    | nil => rfl
    | @pair high low b cs bs spelled _ ih =>
      have rest : '+' ∉ cs :=
        fun h => plus (List.mem_cons_of_mem _ (List.mem_cons_of_mem _ h))
      exact (spells_cons high low cs b bs).2 ⟨spelled, ih rest⟩
    | signed => exact absurd List.mem_cons_self plus

end Record

/-! ## Records -/

/-- A record of an Intel HEX file. -/
structure HexRecord where
  address : Word
  kind : Byte
  payload : List Byte
  /-- Its length is written in one byte. -/
  short : payload.length ≤ 255
  known : kind ≤ 5
  /-- Data ends at the end of program memory. -/
  fits : kind = 0 → address.toNat + payload.length ≤ 0x10000
  /-- The upper address bits that are selected are zero. -/
  lowest : kind = 2 ∨ kind = 4 → ∀ b ∈ payload, b = 0

namespace HexRecord

/-- The bytes in front of the checksum. -/
def body (r : HexRecord) : List Byte :=
  UInt8.ofNat r.payload.length :: r.address.hi :: r.address.lo :: r.kind :: r.payload

/-- The byte that makes the sum of all bytes zero. -/
def checksum (r : HexRecord) : Byte := 0 - r.body.foldl (· + ·) 0

def bytes (r : HexRecord) : List Byte := r.body ++ [r.checksum]

/-- What the record asks for. -/
def meaning (r : HexRecord) : Record :=
  if r.kind = 0 then .data r.address r.payload
  else if r.kind = 1 then .endOfFile
  else .ignored

end HexRecord

namespace Record

theorem ofPayload_meaning (r : HexRecord) :
    ofPayload r.address r.kind r.payload = .ok r.meaning := by
  unfold ofPayload HexRecord.meaning
  split
  · next data => rw [if_neg (Nat.not_lt.2 (r.fits data))]
  · split
    · rfl
    · split
      · next select =>
        have zero : r.payload.any (· ≠ 0) = false := by
          rw [List.any_eq_false]
          intro b hb
          simpa using r.lowest select b hb
        rw [zero]
        rfl
      · next data stop select =>
        have start : r.kind = 3 ∨ r.kind = 5 := by
          have known := r.known
          simp only [← UInt8.toNat_inj, UInt8.le_iff_toNat_le, UInt8.reduceToNat] at *
          omega
        rw [if_pos start]

theorem ofPayload_eq_ok {address : Word} {kind : Byte} {payload : List Byte} {m : Record}
    (short : payload.length ≤ 255) (h : ofPayload address kind payload = .ok m) :
    ∃ r : HexRecord, r.address = address ∧ r.kind = kind ∧ r.payload = payload ∧ m = r.meaning := by
  have fits : kind = 0 → address.toNat + payload.length ≤ 0x10000 := by
    rintro rfl
    refine Nat.not_lt.1 fun beyond => ?_
    simp [ofPayload, beyond] at h
  have lowest : kind = 2 ∨ kind = 4 → ∀ b ∈ payload, b = 0 := by
    intro select b hb
    refine Decidable.byContradiction fun nonzero => ?_
    have upper : ∃ x, x ∈ payload ∧ ¬ x = 0 := ⟨b, hb, nonzero⟩
    rcases select with rfl | rfl <;> simp [ofPayload, upper] at h
  have known : kind ≤ 5 := by
    refine UInt8.not_lt.1 fun above => ?_
    have other : ∀ k : Byte, k ≤ 5 → kind ≠ k := by
      rintro k hk rfl
      exact UInt8.not_lt.2 hk above
    simp [ofPayload, other] at h
  let r : HexRecord := ⟨address, kind, payload, short, known, fits, lowest⟩
  refine ⟨r, rfl, rfl, rfl, ?_⟩
  have := ofPayload_meaning r
  rw [h] at this
  exact Except.ok.inj this

theorem sum_bytes_eq_zero_iff (body : List Byte) (last : Byte) :
    (body ++ [last]).foldl (· + ·) 0 = 0 ↔ last = 0 - body.foldl (· + ·) 0 := by
  rw [List.foldl_append]
  show body.foldl (· + ·) 0 + last = 0 ↔ _
  grind

theorem ofBytes_bytes (r : HexRecord) : ofBytes r.bytes = .ok r.meaning := by
  have short := r.short
  have count : (UInt8.ofNat r.payload.length).toNat = r.payload.length := by
    rw [UInt8.toNat_ofNat']
    omega
  have sum : r.bytes.foldl (· + ·) 0 = 0 := (sum_bytes_eq_zero_iff _ _).2 rfl
  have payload : (r.payload ++ [r.checksum]).take r.payload.length = r.payload :=
    List.take_left' rfl
  show (if (r.payload ++ [r.checksum]).length ≠ (UInt8.ofNat r.payload.length).toNat + 1 then _
    else if r.bytes.foldl (· + ·) 0 ≠ 0 then _
    else ofPayload (Word.ofBytes r.address.hi r.address.lo) r.kind
      ((r.payload ++ [r.checksum]).take (UInt8.ofNat r.payload.length).toNat)) = _
  rw [count, sum, payload, if_neg (by simp), if_neg (by simp), Word.ofBytes_hi_lo,
    ofPayload_meaning]

theorem ofBytes_eq_ok_iff {bs : List Byte} {m : Record} :
    ofBytes bs = .ok m ↔ ∃ r : HexRecord, bs = r.bytes ∧ m = r.meaning := by
  constructor
  · intro h
    unfold ofBytes at h
    split at h
    · next count high low kind rest =>
      split at h
      · cases h
      · next size =>
        dsimp only at h
        split at h
        · cases h
        · next sum =>
          replace size : rest.length = count.toNat + 1 := Decidable.not_not.1 size
          replace sum := Decidable.not_not.1 sum
          have lt := count.toNat_lt
          have taken : (rest.take count.toNat).length = count.toNat := by
            rw [List.length_take]
            omega
          obtain ⟨r, hAddress, hKind, hPayload, hm⟩ := ofPayload_eq_ok (by omega) h
          have body : r.body = count :: high :: low :: kind :: rest.take count.toNat := by
            unfold HexRecord.body
            rw [hAddress, hKind, hPayload, taken, Word.hi_ofBytes, Word.lo_ofBytes,
              UInt8.ofNat_toNat]
          obtain ⟨last, hlast⟩ : ∃ last, rest.drop count.toNat = [last] := by
            rw [← List.length_eq_one_iff, List.length_drop]
            omega
          have whole : count :: high :: low :: kind :: rest = r.body ++ [last] := by
            rw [body, ← hlast]
            simp
          rw [whole] at sum ⊢
          refine ⟨r, ?_, hm⟩
          rw [(sum_bytes_eq_zero_iff _ _).1 sum]
          rfl
    · cases h
  · rintro ⟨r, rfl, rfl⟩
    exact ofBytes_bytes r

theorem ofLine_eq_ok_iff {line : List Char} {m : Record} :
    ofLine line = .ok m ↔
      ∃ (r : HexRecord) (cs : List Char), line = ':' :: cs ∧ Digits cs r.bytes ∧ m = r.meaning := by
  unfold ofLine
  constructor
  · intro h
    split at h
    · next cs =>
      split at h
      · next bs read =>
        obtain ⟨r, rfl, hm⟩ := ofBytes_eq_ok_iff.1 h
        exact ⟨r, cs, rfl, bytes_eq_ok_iff.1 read, hm⟩
      · cases h
    · cases h
  · rintro ⟨r, cs, rfl, digits, rfl⟩
    simp only [bytes_eq_ok_iff.2 digits, ofBytes_bytes]

end Record

/-! ## Reading lines -/

/-- The characters of a line without the blanks around them. -/
def trimmed (line : List Byte) : List Char := trimBlanks (Utf8.decode line)

/-- Put the data of a record into an image. -/
def HexRecord.place (r : HexRecord) (image : Image) : Image :=
  if r.kind = 0 then image.write r.address r.payload else image

namespace Image

variable {image image' : Image} {n : Nat} {line : List Byte} {rest : List (List Byte)}

theorem readRecords_blank (h : trimmed line = []) :
    readRecords image n (line :: rest) = readRecords image (n + 1) rest := by
  unfold trimmed at h
  rw [readRecords, h]
  rfl

theorem readRecords_record {r : HexRecord} (h : Record.ofLine (trimmed line) = .ok r.meaning) :
    readRecords image n (line :: rest) =
      if r.kind = 1 then .ok image else readRecords (r.place image) (n + 1) rest := by
  have text : (trimmed line).isEmpty = false := by
    rw [List.isEmpty_eq_false_iff]
    intro e
    rw [e] at h
    cases h
  unfold trimmed at h text
  rw [readRecords, if_neg (by simp [text]), h]
  unfold HexRecord.meaning HexRecord.place
  by_cases data : r.kind = 0
  · have other : r.kind ≠ 1 := by
      rw [data]
      decide
    simp [data]
  · by_cases stop : r.kind = 1 <;> simp [data, stop]

/-- A line that is read is blank or holds a record. -/
theorem readRecords_cases (h : readRecords image n (line :: rest) = .ok image') :
    (trimmed line = [] ∧ readRecords image (n + 1) rest = .ok image') ∨
    ∃ r : HexRecord, Record.ofLine (trimmed line) = .ok r.meaning ∧
      (r.kind ≠ 1 → readRecords (r.place image) (n + 1) rest = .ok image') := by
  by_cases blank : trimmed line = []
  · rw [readRecords_blank blank] at h
    exact .inl ⟨blank, h⟩
  · cases read : Record.ofLine (trimmed line) with
    | ok m =>
      obtain ⟨r, cs, -, -, rfl⟩ := Record.ofLine_eq_ok_iff.1 read
      refine .inr ⟨r, rfl, fun stop => ?_⟩
      rwa [readRecords_record read, if_neg stop] at h
    | error fault =>
      have text : (trimmed line).isEmpty = false := List.isEmpty_eq_false_iff.2 blank
      unfold trimmed at read text
      rw [readRecords, if_neg (by simp [text]), read] at h
      cases h

end Image

end Trainer51
