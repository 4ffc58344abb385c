import Trainer51.Image.Record
import Trainer51.Text.Hexadecimal

/-!
# Hexadecimal numbers read back

    c.toUpper = digit n ↔ Record.digit? c = some (n % 16)           (toUpper_eq_digit_iff)
    value? (plain n).toList = some (n % 0x10000)                    (value?_plain)
-/

namespace Trainer51.Hexadecimal

/-! ## Digits -/

theorem digit_mod (n : Nat) : digit (n % 16) = digit n := by
  unfold digit
  rw [Nat.mod_mod]

theorem digit?_ascii : ∀ k, k < 128 → ∀ n, n < 16 →
    ((Char.ofNat k).toUpper = digit n ↔ Record.digit? (Char.ofNat k) = some n) := by
  decide +kernel

theorem digit_lt_128 : ∀ n, n < 16 → (digit n).toNat < 128 := by
  decide

/-- Beyond the ASCII characters there is no digit. -/
theorem digit?_beyond {c : Char} (h : 128 ≤ c.toNat) : Record.digit? c = none ∧ c.toUpper = c := by
  have above {d : Char} (hd : d.toNat < 128) : ¬ c ≤ d := by
    intro le
    have : c.toNat ≤ d.toNat := le
    omega
  have nine : ¬ c ≤ '9' := above (by decide)
  have upper : ¬ c ≤ 'F' := above (by decide)
  have lower : ¬ c ≤ 'f' := above (by decide)
  have letter : ¬ c.val ≤ 'z'.val := above (d := 'z') (by decide)
  constructor
  · simp [Record.digit?, nine, upper, lower]
  · unfold Char.toUpper
    rw [dif_neg fun hc => letter hc.2]

/-- The digits of either case are the characters that have a value. -/
theorem toUpper_eq_digit_iff (c : Char) (n : Nat) :
    c.toUpper = digit n ↔ Record.digit? c = some (n % 16) := by
  have lt : n % 16 < 16 := Nat.mod_lt _ (by decide)
  rw [← digit_mod]
  by_cases h : c.toNat < 128
  · have := digit?_ascii c.toNat h (n % 16) lt
    rwa [Char.ofNat_toNat] at this
  · obtain ⟨none, same⟩ := digit?_beyond (Nat.not_lt.1 h)
    rw [none, same]
    constructor
    · intro e
      rw [e] at h
      exact absurd (digit_lt_128 _ lt) h
    · intro e
      cases e

theorem toUpper_digit (n : Nat) : (digit n).toUpper = digit n := by
  have upper : ∀ n, n < 16 → (digit n).toUpper = digit n := by decide
  rw [← digit_mod]
  exact upper _ (Nat.mod_lt _ (by decide))

theorem digit?_digit (n : Nat) : Record.digit? (digit n) = some (n % 16) :=
  (toUpper_eq_digit_iff _ n).1 (toUpper_digit n)

/-- A statement about every digit is one about ASCII characters. -/
theorem forall_digit {p : Char → Prop}
    (h : ∀ k, k < 128 → (Record.digit? (Char.ofNat k)).isSome → p (Char.ofNat k)) {c : Char}
    (hc : (Record.digit? c).isSome) : p c := by
  by_cases ascii : c.toNat < 128
  · have := h c.toNat ascii
    rw [Char.ofNat_toNat] at this
    exact this hc
  · rw [(digit?_beyond (Nat.not_lt.1 ascii)).1] at hc
    cases hc

theorem digit?_lt {c : Char} {n : Nat} (h : Record.digit? c = some n) : n < 16 := by
  have small : ∀ k, k < 128 → (Record.digit? (Char.ofNat k)).isSome →
      ∀ n ∈ Record.digit? (Char.ofNat k), n < 16 := by
    decide +kernel
  have some : (Record.digit? c).isSome := by
    rw [h]
    rfl
  exact forall_digit (p := fun c => ∀ n ∈ Record.digit? c, n < 16) small some n h

/-! ## Numbers -/

/-- The number that digits of either case stand for. -/
def value? (cs : List Char) : Option Nat :=
  cs.foldlM (fun n c => (Record.digit? c).map (16 * n + ·)) 0

/-- Leading zeros do not count. -/
theorem value?_dropWhile (cs : List Char) : value? (cs.dropWhile (· == '0')) = value? cs := by
  induction cs with
  | nil => rfl
  | cons c cs ih =>
    by_cases h : c = '0'
    · subst h
      exact ih
    · rw [List.dropWhile_cons_of_neg (by simpa using h)]

theorem digits_four (n : Nat) :
    digits 4 n = [digit (n / 16 / 16 / 16), digit (n / 16 / 16), digit (n / 16), digit n] := rfl

theorem value?_digits (n : Nat) : value? (digits 4 n) = some (n % 0x10000) := by
  rw [digits_four]
  simp [value?, digit?_digit]
  omega

/-- A number printed without leading zeros reads back, up to its lowest sixteen bits. -/
theorem value?_plain (n : Nat) : value? (plain n).toList = some (n % 0x10000) := by
  have read := value?_dropWhile (digits 4 n)
  rw [value?_digits] at read
  unfold plain
  split
  · next h =>
    rw [h] at read
    exact read
  · rw [String.toList_ofList]
    exact read

/-- Numbers are printed with digits only. -/
theorem isSome_digit?_of_mem_plain {n : Nat} {c : Char} (h : c ∈ (plain n).toList) :
    (Record.digit? c).isSome := by
  have upper : ∀ c ∈ digits 4 n, (Record.digit? c).isSome := by
    intro c hc
    rw [digits_four] at hc
    simp only [List.mem_cons, List.not_mem_nil, or_false] at hc
    rcases hc with rfl | rfl | rfl | rfl <;> rw [digit?_digit] <;> rfl
  unfold plain at h
  split at h
  · have : c = '0' := by simpa using h
    subst this
    decide
  · next hd =>
    rw [String.toList_ofList] at h
    exact upper c ((List.dropWhile_suffix _).subset h)

end Trainer51.Hexadecimal
