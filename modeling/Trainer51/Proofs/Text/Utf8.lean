import Mathlib.Algebra.Ring.Nat
import Trainer51.Text.Utf8

/-!
# Cutting a text at an ASCII character

A byte below 80h stands for the character of its number wherever it is, since no sequence can go on
with it, and no other byte stands for such a character.  So bytes can be cut where the text that
they stand for has an ASCII character, and each part stands for its part of the text.

    decode (front ++ b :: back) = decode front ++ ofNat b :: decode back      (decode_append_ascii)
    decode bytes = front ++ c :: back → c cuts the bytes as well              (exists_cut)
-/

namespace Trainer51.Utf8

/-! ## Sequences -/

/-- However a sequence goes on it becomes a character, and none below 80h.  The codes that it can
still become end before the last one there is and lie on one side of the surrogates. -/
structure Sequence.Sound (s : Sequence) : Prop where
  low : 0x80 ≤ s.low.toNat
  high : s.high.toNat ≤ 0xBF
  above : 0x80 ≤ (s.code * 64 + s.low.toNat % 64) * 64 ^ s.afterNext
  below : (s.code * 64 + s.high.toNat % 64 + 1) * 64 ^ s.afterNext ≤ 0x110000
  surrogates : (s.code * 64 + s.high.toNat % 64 + 1) * 64 ^ s.afterNext ≤ 0xD800 ∨
    0xE000 ≤ (s.code * 64 + s.low.toNat % 64) * 64 ^ s.afterNext

theorem sound_lead {b : Byte} {s : Sequence} (h : lead b = .sequence s) : s.Sound := by
  have lt := b.toNat_lt
  simp only [lead, UInt8.lt_iff_toNat_lt, ← UInt8.toNat_inj, UInt8.reduceToNat] at h
  split at h
  · cases h
  · split at h
    · cases h
    · split at h
      · cases h
        constructor <;> simp only [UInt8.reduceToNat] <;> omega
      · split at h
        · cases h
          constructor <;> dsimp only <;> repeat' split
          all_goals simp only [UInt8.reduceToNat]; omega
        · split at h
          · cases h
            constructor <;> dsimp only <;> repeat' split
            all_goals simp only [UInt8.reduceToNat]; omega
          · cases h

namespace Sequence.Sound

variable {s : Sequence}

/-- With a byte that goes on with it a sequence can only become what it could become before. -/
theorem narrow (h : s.Sound) {b : Byte} (low : s.low ≤ b) (high : b ≤ s.high) :
    0x80 ≤ (s.code * 64 + b.toNat % 64) * 64 ^ s.afterNext ∧
      (s.code * 64 + b.toNat % 64 + 1) * 64 ^ s.afterNext ≤ 0x110000 ∧
      ((s.code * 64 + b.toNat % 64 + 1) * 64 ^ s.afterNext ≤ 0xD800 ∨
        0xE000 ≤ (s.code * 64 + b.toNat % 64) * 64 ^ s.afterNext) := by
  obtain ⟨hl, hh, above, below, surrogates⟩ := h
  rw [UInt8.le_iff_toNat_le] at low high
  have first : (s.code * 64 + s.low.toNat % 64) * 64 ^ s.afterNext ≤
      (s.code * 64 + b.toNat % 64) * 64 ^ s.afterNext := Nat.mul_le_mul_right _ (by omega)
  have last : (s.code * 64 + b.toNat % 64 + 1) * 64 ^ s.afterNext ≤
      (s.code * 64 + s.high.toNat % 64 + 1) * 64 ^ s.afterNext :=
    Nat.mul_le_mul_right _ (by omega)
  omega

/-- The character that the last byte makes. -/
theorem toNat_ofNat (h : s.Sound) {b : Byte} (low : s.low ≤ b) (high : b ≤ s.high)
    (last : s.afterNext = 0) :
    0x80 ≤ (Char.ofNat (s.code * 64 + b.toNat % 64)).toNat := by
  obtain ⟨above, below, surrogates⟩ := h.narrow low high
  rw [last, Nat.pow_zero, Nat.mul_one, Nat.mul_one] at *
  have valid : (s.code * 64 + b.toNat % 64).isValidChar := by
    show _ ∨ _ ∧ _
    omega
  rw [Char.ofNat, dif_pos valid]
  exact above

theorem next (h : s.Sound) {b : Byte} (low : s.low ≤ b) (high : b ≤ s.high) {n : Nat}
    (more : s.afterNext = n + 1) :
    (Sequence.mk (s.code * 64 + b.toNat % 64) n 0x80 0xBF).Sound := by
  obtain ⟨above, below, surrogates⟩ := h.narrow low high
  have power (code : Nat) : code * 64 ^ (n + 1) = code * 64 * 64 ^ n := by
    rw [Nat.pow_succ', Nat.mul_assoc]
  have first (code : Nat) : code * 64 + (0x80 : Byte).toNat % 64 = code * 64 := rfl
  have last (code : Nat) : code * 64 + (0xBF : Byte).toNat % 64 + 1 = (code + 1) * 64 := by
    show code * 64 + 63 + 1 = _
    omega
  rw [more, power, power] at *
  constructor <;> dsimp only
  · decide
  · decide
  · rwa [first]
  · rwa [last]
  · rwa [first, last]

end Sequence.Sound

/-! ## States -/

/-- A sequence in progress is sound. -/
def State.Sound (state : State) : Prop := ∀ s ∈ state.current, s.Sound

theorem sound_start (read : List Char) (b : Byte) : (start read b).Sound := by
  unfold start
  split
  · exact fun s hs => nomatch hs
  · next s hs =>
    intro s' hs'
    cases hs'
    exact sound_lead hs
  · exact fun s hs => nomatch hs

theorem State.Sound.next {state : State} (h : state.Sound) (b : Byte) :
    (next state b).Sound := by
  obtain ⟨read, current⟩ := state
  unfold Utf8.next
  cases current with
  | none => exact sound_start read b
  | some s =>
    dsimp only
    split
    · next fits =>
      split
      · exact fun s hs => nomatch hs
      · next n more =>
        intro s' hs'
        cases hs'
        exact (h s rfl).next fits.1 fits.2 more
    · exact sound_start _ b

theorem sound_foldl (bytes : List Byte) {state : State} (h : state.Sound) :
    (bytes.foldl next state).Sound := by
  induction bytes generalizing state with
  | nil => exact h
  | cons b bytes ih => exact ih (h.next b)

theorem sound_nothing (read : List Char) : (State.mk read none).Sound := fun _ h => nomatch h

/-! ## Cutting at a byte -/

/-- What was read before has no say in what is read next. -/
theorem next_append (read : List Char) (current : Option Sequence) (b : Byte) :
    next ⟨read, current⟩ b =
      ⟨(next ⟨[], current⟩ b).read ++ read, (next ⟨[], current⟩ b).current⟩ := by
  unfold next start
  cases current with
  | none => dsimp only; split <;> rfl
  | some s =>
    dsimp only
    split
    · split <;> rfl
    · split <;> rfl

theorem foldl_next_append (bytes : List Byte) (read : List Char) (current : Option Sequence) :
    bytes.foldl next ⟨read, current⟩ =
      ⟨(bytes.foldl next ⟨[], current⟩).read ++ read,
        (bytes.foldl next ⟨[], current⟩).current⟩ := by
  induction bytes generalizing read current with
  | nil => rfl
  | cons b bytes ih =>
    rw [List.foldl_cons, List.foldl_cons, next_append read,
      ih ((next ⟨[], current⟩ b).read ++ read), ih (next ⟨[], current⟩ b).read, List.append_assoc]

theorem finish_foldl (bytes : List Byte) (read : List Char) :
    (bytes.foldl next ⟨read, none⟩).finish = read.reverse ++ decode bytes := by
  rw [foldl_next_append]
  unfold decode State.finish
  cases (bytes.foldl next ⟨[], none⟩).current <;> simp

/-- An ASCII byte ends what is in progress. -/
theorem next_of_ascii {state : State} (h : state.Sound) {b : Byte} (ascii : b < 0x80) :
    next state b = ⟨Char.ofNat b.toNat :: state.finish.reverse, none⟩ := by
  obtain ⟨read, current⟩ := state
  cases current with
  | none =>
    rw [next_ascii read ascii]
    simp [State.finish]
  | some s =>
    have low := (h s rfl).low
    have ends : ¬(s.low ≤ b ∧ b ≤ s.high) := by
      rw [UInt8.lt_iff_toNat_lt] at ascii
      rw [UInt8.le_iff_toNat_le]
      have : (0x80 : Byte).toNat = 0x80 := rfl
      omega
    unfold next
    dsimp only
    rw [if_neg ends]
    simp [start, lead, ascii, State.finish]

/-- **An ASCII byte cuts a text.** -/
theorem decode_append_ascii (front back : List Byte) {b : Byte} (h : b < 0x80) :
    decode (front ++ b :: back) = decode front ++ Char.ofNat b.toNat :: decode back := by
  have sound := sound_foldl front (sound_nothing [])
  unfold decode
  rw [List.foldl_append, List.foldl_cons, next_of_ascii sound h, finish_foldl]
  simp [decode]

/-! ## Cutting at a character -/

theorem lead_ne_ascii {b : Byte} (beyond : 0x80 ≤ b) : lead b ≠ .ascii := by
  unfold lead
  rw [if_neg (UInt8.not_lt.2 beyond)]
  repeat' split
  all_goals exact nofun

/-- A byte that is not ASCII makes no ASCII character. -/
theorem le_of_mem_next {state : State} (h : state.Sound) {b : Byte} (beyond : 0x80 ≤ b) {c : Char}
    (hc : c ∈ (next state b).read) : c ∈ state.read ∨ 0x80 ≤ c.toNat := by
  have replaced {read : List Char} (hc : c ∈ replacement :: read) : c ∈ read ∨ 0x80 ≤ c.toNat := by
    rcases List.mem_cons.1 hc with rfl | hc
    · exact .inr (by decide)
    · exact .inl hc
  have started {read : List Char} (hc : c ∈ (start read b).read) : c ∈ read ∨ 0x80 ≤ c.toNat := by
    unfold start at hc
    split at hc
    · next ascii => exact absurd ascii (lead_ne_ascii beyond)
    · exact .inl hc
    · exact replaced hc
  obtain ⟨read, current⟩ := state
  unfold next at hc
  cases current with
  | none => exact started hc
  | some s =>
    dsimp only at hc
    split at hc
    · next fits =>
      split at hc
      · next last =>
        rcases List.mem_cons.1 hc with rfl | hc
        · exact .inr ((h s rfl).toNat_ofNat fits.1 fits.2 last)
        · exact .inl hc
      · exact .inl hc
    · exact (started hc).elim replaced .inr

theorem le_of_mem_decode {bytes : List Byte} (beyond : ∀ b ∈ bytes, 0x80 ≤ b) :
    ∀ c ∈ decode bytes, 0x80 ≤ c.toNat := by
  have read {state : State} (h : state.Sound) :
      ∀ c ∈ (bytes.foldl next state).read, c ∈ state.read ∨ 0x80 ≤ c.toNat := by
    induction bytes generalizing state with
    | nil => exact fun c hc => .inl hc
    | cons b bytes ih =>
      obtain ⟨first, rest⟩ := List.forall_mem_cons.1 beyond
      intro c hc
      rcases ih rest (h.next b) c hc with hc | hc
      · exact le_of_mem_next h first hc
      · exact .inr hc
  intro c hc
  unfold decode State.finish at hc
  have new {c : Char} (hc : c ∈ (bytes.foldl next ⟨[], none⟩).read) : 0x80 ≤ c.toNat :=
    (read (sound_nothing []) c hc).resolve_left List.not_mem_nil
  split at hc
  · exact new (List.mem_reverse.1 hc)
  · rcases List.mem_cons.1 (List.mem_reverse.1 hc) with rfl | hc
    · decide
    · exact new hc

theorem toUInt8_ofNat {b : Byte} (ascii : b < 0x80) : (Char.ofNat b.toNat).toUInt8 = b := by
  have all : ∀ n, n < 128 → (Char.ofNat n).toUInt8 = UInt8.ofNat n := by decide +kernel
  rw [all b.toNat (UInt8.lt_iff_toNat_lt.1 ascii), UInt8.ofNat_toNat]

/-- **An ASCII character cuts the bytes.** -/
theorem exists_cut {bytes : List Byte} {front back : List Char} {c : Char} (ascii : c.toNat < 0x80)
    (h : decode bytes = front ++ c :: back) :
    ∃ before after, bytes = before ++ c.toUInt8 :: after ∧ decode before = front ∧
      decode after = back := by
  by_cases beyond : ∀ b ∈ bytes, 0x80 ≤ b
  · have := le_of_mem_decode beyond c (by simp [h])
    omega
  · obtain ⟨b, found⟩ : ∃ b, bytes.find? (· < 0x80) = some b := by
      simpa [← Option.isSome_iff_exists] using beyond
    obtain ⟨small, before, after, cut, none⟩ := List.find?_eq_some_iff_append.1 found
    have small : b < 0x80 := by simpa using small
    have none : ∀ b ∈ before, 0x80 ≤ b := by simpa using none
    rw [cut, decode_append_ascii _ _ small, List.append_eq_append_iff] at h
    -- the first ASCII byte makes the character or one in front of it
    obtain ⟨rest, rfl, h⟩ | ⟨rest, front_eq, h⟩ := h
    · cases rest with
      | nil =>
        obtain ⟨rfl, rfl⟩ := List.cons.inj h
        exact ⟨before, after, by rw [toUInt8_ofNat small, cut], (List.append_nil _).symm, rfl⟩
      | cons d rest =>
        obtain ⟨rfl, tail⟩ := List.cons.inj h
        have shorter : after.length < bytes.length := by
          rw [cut, List.length_append, List.length_cons]
          omega
        obtain ⟨before', after', rfl, rfl, rfl⟩ := exists_cut ascii tail
        refine ⟨before ++ b :: before', after', ?_, decode_append_ascii _ _ small, rfl⟩
        rw [cut, List.append_assoc, List.cons_append]
    · cases rest with
      | nil =>
        obtain ⟨rfl, rfl⟩ := List.cons.inj h
        rw [List.append_nil] at front_eq
        exact ⟨before, after, by rw [toUInt8_ofNat small, cut], front_eq, rfl⟩
      | cons d rest =>
        obtain ⟨rfl, -⟩ := List.cons.inj h
        have := le_of_mem_decode none c (by simp [front_eq])
        omega
termination_by bytes.length

/-! ## Several characters -/

theorem ofNat_toUInt8 {c : Char} (ascii : c.toNat < 0x80) :
    c.toUInt8 < 0x80 ∧ Char.ofNat c.toUInt8.toNat = c := by
  have code : c.toUInt8.toNat = c.toNat := by
    show c.toNat % 256 = c.toNat
    omega
  rw [UInt8.lt_iff_toNat_lt, code, Char.ofNat_toNat]
  exact ⟨ascii, rfl⟩

/-- The bytes of ASCII characters cut a text. -/
theorem decode_append_chars {c : Char} {cs : List Char} (ascii : ∀ d ∈ c :: cs, d.toNat < 0x80)
    (front back : List Byte) :
    decode (front ++ (c :: cs).map Char.toUInt8 ++ back) =
      decode front ++ (c :: cs) ++ decode back := by
  have cut {c : Char} (h : c.toNat < 0x80) (front back : List Byte) :
      decode (front ++ c.toUInt8 :: back) = decode front ++ c :: decode back := by
    obtain ⟨small, same⟩ := ofNat_toUInt8 h
    rw [decode_append_ascii _ _ small, same]
  induction cs generalizing c front with
  | nil =>
    have := cut (ascii c List.mem_cons_self) front back
    simpa using this
  | cons d cs ih =>
    obtain ⟨first, rest⟩ := List.forall_mem_cons.1 ascii
    have := cut first front ((d :: cs).map Char.toUInt8 ++ back)
    rw [← List.nil_append ((d :: cs).map Char.toUInt8), ih rest] at this
    simpa [decode, State.finish] using this

theorem finish_next (state : State) (b : Byte) : (next state b).finish ≠ [] := by
  obtain ⟨read, current⟩ := state
  have started (read : List Char) : (start read b).finish ≠ [] := by
    unfold start
    split <;> simp [State.finish]
  unfold next
  cases current with
  | none => exact started read
  | some s =>
    dsimp only
    split
    · split <;> simp [State.finish]
    · exact started _

/-- Only no bytes are no text. -/
theorem eq_nil_of_decode {bytes : List Byte} (h : decode bytes = []) : bytes = [] := by
  rcases List.eq_nil_or_concat bytes with none | ⟨front, b, rfl⟩
  · exact none
  · unfold decode at h
    rw [List.concat_eq_append, List.foldl_append] at h
    exact absurd h (finish_next _ b)

/-- ASCII characters side by side cut the bytes. -/
theorem exists_cut_chars {cs : List Char} {c : Char} {bytes : List Byte} {front back : List Char}
    (ascii : ∀ d ∈ c :: cs, d.toNat < 0x80) (h : decode bytes = front ++ (c :: cs) ++ back) :
    ∃ before after, bytes = before ++ (c :: cs).map Char.toUInt8 ++ after ∧
      decode before = front ∧ decode after = back := by
  induction cs generalizing c bytes front with
  | nil =>
    obtain ⟨before, after, rfl, hb, ha⟩ := exists_cut (ascii c List.mem_cons_self)
      (h.trans (List.append_assoc front [c] back))
    exact ⟨before, after, by simp, hb, ha⟩
  | cons d cs ih =>
    obtain ⟨first, rest⟩ := List.forall_mem_cons.1 ascii
    rw [List.append_assoc, List.cons_append] at h
    obtain ⟨before, tail, rfl, hb, ht⟩ := exists_cut first h
    -- nothing stands between two characters that stand side by side
    have side : decode tail = [] ++ (d :: cs) ++ back := ht
    obtain ⟨none, after, rfl, hn, ha⟩ := ih rest side
    cases eq_nil_of_decode hn
    exact ⟨before, after, by simp, hb, ha⟩

/-- An ASCII byte stands in the text for itself. -/
theorem mem_decode {bytes : List Byte} {b : Byte} (hb : b ∈ bytes) (ascii : b < 0x80) :
    Char.ofNat b.toNat ∈ decode bytes := by
  obtain ⟨before, after, rfl⟩ := List.append_of_mem hb
  rw [decode_append_ascii _ _ ascii]
  simp

end Trainer51.Utf8
