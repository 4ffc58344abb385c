import Trainer51.Byte

/-!
# Bytes as text

Reading bytes as UTF-8 where every stretch that is not well formed becomes one replacement
character.  Such a stretch is as long as it could still have been the start of a character, so a
byte that breaks a sequence off is looked at again as a start of its own.

    decode of ASCII bytes is those characters                                    (decode_ascii)
-/

namespace Trainer51.Utf8

/-- Stands for bytes that are no character. -/
def replacement : Char := Char.ofNat 0xFFFD

/-- A character of which the first bytes have been read. -/
structure Sequence where
  /-- The bits read so far. -/
  code : Nat
  /-- How many bytes are still to come, less the next one. -/
  afterNext : Nat
  /-- The next byte lies between these two. -/
  low : Byte
  high : Byte

/-- What a byte at the start of a character announces. -/
inductive Lead where
  | ascii
  | sequence (s : Sequence)
  | invalid

/-- The second byte's range excludes overlong forms, surrogates and codes past the last plane. -/
def lead (b : Byte) : Lead :=
  if b < 0x80 then .ascii
  else if b < 0xC2 then .invalid
  else if b < 0xE0 then .sequence ⟨b.toNat % 32, 0, 0x80, 0xBF⟩
  else if b < 0xF0 then
    .sequence ⟨b.toNat % 16, 1, if b = 0xE0 then 0xA0 else 0x80, if b = 0xED then 0x9F else 0xBF⟩
  else if b < 0xF5 then
    .sequence ⟨b.toNat % 8, 2, if b = 0xF0 then 0x90 else 0x80, if b = 0xF4 then 0x8F else 0xBF⟩
  else .invalid

/-- The characters read, last first, and the one in progress. -/
structure State where
  read : List Char
  current : Option Sequence

/-- Read `b` as the start of a character. -/
def start (read : List Char) (b : Byte) : State :=
  match lead b with
  | .ascii => ⟨Char.ofNat b.toNat :: read, none⟩
  | .sequence s => ⟨read, some s⟩
  | .invalid => ⟨replacement :: read, none⟩

/-- Read one more byte. -/
def next (state : State) (b : Byte) : State :=
  match state.current with
  | none => start state.read b
  | some s =>
    if s.low ≤ b ∧ b ≤ s.high then
      let code := s.code * 64 + b.toNat % 64
      match s.afterNext with
      | 0 => ⟨Char.ofNat code :: state.read, none⟩
      | n + 1 => ⟨state.read, some ⟨code, n, 0x80, 0xBF⟩⟩
    else start (replacement :: state.read) b

/-- End the text: an unfinished character is not one. -/
def State.finish (state : State) : List Char :=
  match state.current with
  | none => state.read.reverse
  | some _ => (replacement :: state.read).reverse

/-- The text that bytes stand for. -/
def decode (bytes : List Byte) : List Char := (bytes.foldl next ⟨[], none⟩).finish

/-! ## Lemmas -/

theorem next_ascii (read : List Char) {b : Byte} (h : b < 0x80) :
    next ⟨read, none⟩ b = ⟨Char.ofNat b.toNat :: read, none⟩ := by
  simp [next, start, lead, h]

theorem foldl_next_ascii (bytes : List Byte) (h : ∀ b ∈ bytes, b < 0x80) (read : List Char) :
    bytes.foldl next ⟨read, none⟩ =
      ⟨(bytes.map fun b => Char.ofNat b.toNat).reverse ++ read, none⟩ := by
  induction bytes generalizing read with
  | nil => rfl
  | cons b bs ih =>
    rw [List.foldl_cons, next_ascii read (h b List.mem_cons_self),
      ih fun c hc => h c (List.mem_cons_of_mem b hc)]
    simp

/-- Bytes below 80h are the characters of the same numbers. -/
theorem decode_ascii (bytes : List Byte) (h : ∀ b ∈ bytes, b < 0x80) :
    decode bytes = bytes.map fun b => Char.ofNat b.toNat := by
  simp [decode, foldl_next_ascii bytes h, State.finish]

end Trainer51.Utf8
