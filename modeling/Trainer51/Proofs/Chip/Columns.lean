import Mathlib.Data.Nat.Digits.Defs
import Mathlib.Tactic.Linarith
import Mathlib.Tactic.Ring
import Trainer51.Chip.Execute

/-!
# Calculating in columns

Numbers of any length are calculated digit by digit from the lowest one on, and the carry that a
column leaves goes into the next one.  An equation that holds of every column holds of the whole
rows, and a program that works on the columns in turn stores just what the columns leave.

    r = x + sign * (y + carry - base * carry')           in every column gives
    R = X + sign * (Y + carry - base ^ n * carry')       for n columns         (positional_columns)
    the bytes stored and a flag in the end are those of the columns
                                            (Chip.WorksOut.bytes, Chip.WorksOut.flag)
-/

namespace Trainer51

/-! ## Positional numbers -/

section Positional

variable {α : Type} {base : Nat} {digit : α → Nat}

/-- The number whose digits are those of the elements of a list, the lowest first. -/
def positional (base : Nat) (digit : α → Nat) (as : List α) : Nat :=
  Nat.ofDigits base (as.map digit)

theorem positional_nil : positional base digit [] = 0 := rfl

theorem positional_cons (a : α) (as : List α) :
    positional base digit (a :: as) = digit a + base * positional base digit as :=
  Nat.ofDigits_cons

theorem positional_map {β : Type} (f : β → α) (bs : List β) :
    positional base digit (bs.map f) = positional base (fun b => digit (f b)) bs := by
  unfold positional
  rw [List.map_map]
  rfl

theorem positional_lt {as : List α} (one_lt : 1 < base) (h : ∀ a ∈ as, digit a < base) :
    positional base digit as < base ^ as.length := by
  have small : ∀ d ∈ as.map digit, d < base := List.forall_mem_map.2 h
  have lt := Nat.ofDigits_lt_base_pow_length one_lt small
  rwa [List.length_map] at lt

end Positional

/-- A number and a carry that is worth `m` make up a total in one way. -/
theorem eq_mod_of_add_carry {m r total : Nat} {carry : Bool} (lt : r < m)
    (h : r + m * carry.toNat = total) : r = total % m ∧ carry = decide (m ≤ total) := by
  subst h
  cases carry with
  | false => simp [Nat.mod_eq_of_lt lt, lt]
  | true => simp [Nat.mod_eq_of_lt lt]

/-! ## Columns -/

section Columns

variable {R : Type}

/-- What an operation makes of two rows of bytes, from the lowest column on.  The carry that a
column leaves goes into the next one. -/
def columns (carryOf : R → Bool) (op : Byte → Byte → Bool → R) :
    List Byte → List Byte → Bool → List R
  | x :: xs, y :: ys, carry =>
    op x y carry :: columns carryOf op xs ys (carryOf (op x y carry))
  | _, _, _ => []

/-- A flag behind the columns: as the last one leaves it, or as it was if there is none. -/
def flagAfter (flag : R → Bool) (before : Bool) (results : List R) : Bool :=
  results.foldl (fun _ r => flag r) before

variable {carryOf : R → Bool} {op : Byte → Byte → Bool → R}

theorem length_columns {xs ys : List Byte} (same : xs.length = ys.length) (carry : Bool) :
    (columns carryOf op xs ys carry).length = xs.length := by
  induction xs generalizing ys carry with
  | nil => rfl
  | cons x xs ih =>
    cases ys with
    | nil => cases same
    | cons y ys => exact congrArg (· + 1) (ih (Nat.succ.inj same) _)

/-- What a column leaves is what the operation makes of a byte of each row. -/
theorem exists_of_mem_columns {xs ys : List Byte} {carry : Bool} {r : R}
    (h : r ∈ columns carryOf op xs ys carry) :
    ∃ x ∈ xs, ∃ y ∈ ys, ∃ carry, r = op x y carry := by
  induction xs generalizing ys carry with
  | nil => cases h
  | cons x xs ih =>
    cases ys with
    | nil => cases h
    | cons y ys =>
      obtain rfl | others := List.mem_cons.1 h
      · exact ⟨x, List.mem_cons_self, y, List.mem_cons_self, carry, rfl⟩
      · obtain ⟨x', hx, y', hy, made⟩ := ih others
        exact ⟨x', List.mem_cons_of_mem x hx, y', List.mem_cons_of_mem y hy, made⟩

/-- What holds of every column holds of all of them: `digit` is what a byte counts for in its
column, `result` what a column leaves there, and `base` what a carry is worth. -/
theorem positional_columns (valid : Byte → Prop) (base : Nat) (digit : Byte → Nat)
    (result : R → Nat) {sign : Int}
    (column : ∀ x y carry, valid x → valid y → (result (op x y carry) : Int) =
      digit x + sign * (digit y + carry.toNat - base * (carryOf (op x y carry)).toNat))
    {xs ys : List Byte} (same : xs.length = ys.length) (hx : ∀ x ∈ xs, valid x)
    (hy : ∀ y ∈ ys, valid y) (carry : Bool) :
    let results := columns carryOf op xs ys carry
    (positional base result results : Int) =
      positional base digit xs + sign * (positional base digit ys + carry.toNat -
        base ^ xs.length * (flagAfter carryOf carry results).toNat) := by
  induction xs generalizing ys carry with
  | nil =>
    obtain rfl := List.length_eq_zero_iff.1 same.symm
    simp [columns, flagAfter, positional_nil]
  | cons x xs ih =>
    cases ys with
    | nil => cases same
    | cons y ys =>
      have lowest := column x y carry (hx x List.mem_cons_self) (hy y List.mem_cons_self)
      have others := ih (Nat.succ.inj same) (fun a h => hx a (List.mem_cons_of_mem x h))
        (fun a h => hy a (List.mem_cons_of_mem y h)) (carryOf (op x y carry))
      simp only [columns, flagAfter, List.foldl_cons, positional_cons, List.length_cons,
        Nat.cast_add, Nat.cast_mul, pow_succ] at others ⊢
      rw [others, lowest]
      ring

/-- Of sums the equation holds without a difference. -/
theorem positional_columns_add (valid : Byte → Prop) (base : Nat) (digit : Byte → Nat)
    (result : R → Nat)
    (column : ∀ x y carry, valid x → valid y →
      result (op x y carry) + base * (carryOf (op x y carry)).toNat =
        digit x + digit y + carry.toNat)
    {xs ys : List Byte} (same : xs.length = ys.length) (hx : ∀ x ∈ xs, valid x)
    (hy : ∀ y ∈ ys, valid y) (carry : Bool) :
    let results := columns carryOf op xs ys carry
    positional base result results +
        base ^ xs.length * (flagAfter carryOf carry results).toNat =
      positional base digit xs + positional base digit ys + carry.toNat := by
  intro results
  have all : (positional base result results : Int) =
      positional base digit xs + 1 * (positional base digit ys + carry.toNat -
        base ^ xs.length * (flagAfter carryOf carry results).toNat) :=
    positional_columns valid base digit result
      (fun x y c hx hy => by have := column x y c hx hy; zify at this; linarith) same hx hy carry
  zify
  linarith

end Columns

/-! ## Programs -/

namespace Core

theorem flag_setFlag (c : Core) (m n : Nat) (on : Bool) :
    (c.setFlag n on).flag m = if m % 8 = n % 8 then on else c.flag m :=
  Byte.bit_setBit _ _ _ _

theorem carry_eq_flag (c : Core) : c.carry = c.flag Psw.carry := rfl

end Core

namespace Chip

variable {X P : Type} [ExternalBus X] [RegisterBus P] (code : Word → Byte)

/-- Execute instructions one after the other, as a stretch of a program without jumps. -/
def executeAll (c : Chip X P) (is : List Instruction) : Chip X P :=
  is.foldl (fun c i => (c.execute code i).mapCore Core.updateParity) c

/-- Load a byte into the accumulator and execute what the program does with a second one. -/
def workColumn (program : Byte → List Instruction) (c : Chip X P) (x y : Byte) : Chip X P :=
  c.executeAll code (.move .accumulator (.immediate x) :: program y)

/-- Work on two rows of bytes from the lowest column on, and store the accumulator behind each
column.  Gives the bytes stored and the chip in the end. -/
def workColumns (program : Byte → List Instruction) :
    Chip X P → List Byte → List Byte → List Byte × Chip X P
  | c, x :: xs, y :: ys =>
    let worked := c.workColumn code program x y
    let rest := workColumns program worked xs ys
    (worked.core.a :: rest.1, rest.2)
  | c, _, _ => ([], c)

variable {code} {program : Byte → List Instruction} {R : Type} {op : Byte → Byte → Bool → R}
  {byteOf : R → Byte} {carryOf : R → Bool}

/-- A program leaves of every column the byte and the carry that an operation makes of it. -/
structure WorksOut (X P : Type) [ExternalBus X] [RegisterBus P] (code : Word → Byte)
    (program : Byte → List Instruction) (op : Byte → Byte → Bool → R) (byteOf : R → Byte)
    (carryOf : R → Bool) : Prop where
  byte : ∀ (c : Chip X P) x y,
    (c.workColumn code program x y).core.a = byteOf (op x y c.core.carry)
  carry : ∀ (c : Chip X P) x y,
    (c.workColumn code program x y).core.carry = carryOf (op x y c.core.carry)

/-- A program that works out every column works out the rows. -/
theorem WorksOut.bytes (h : WorksOut X P code program op byteOf carryOf) (c : Chip X P)
    (xs ys : List Byte) : (c.workColumns code program xs ys).1 =
      (columns carryOf op xs ys c.core.carry).map byteOf := by
  induction xs generalizing ys c with
  | nil => rfl
  | cons x xs ih =>
    cases ys with
    | nil => rfl
    | cons y ys =>
      show _ :: (workColumns code program (c.workColumn code program x y) xs ys).1 = _
      rw [ih, h.byte, h.carry]
      rfl

/-- A flag that a program leaves of every column is left of the rows by the highest one. -/
theorem WorksOut.flag (h : WorksOut X P code program op byteOf carryOf) {n : Nat}
    {flagOf : R → Bool}
    (column : ∀ (c : Chip X P) x y,
      (c.workColumn code program x y).core.flag n = flagOf (op x y c.core.carry))
    (c : Chip X P) (xs ys : List Byte) : (c.workColumns code program xs ys).2.core.flag n =
      flagAfter flagOf (c.core.flag n) (columns carryOf op xs ys c.core.carry) := by
  induction xs generalizing ys c with
  | nil => rfl
  | cons x xs ih =>
    cases ys with
    | nil => rfl
    | cons y ys =>
      show (workColumns code program (c.workColumn code program x y) xs ys).2.core.flag n = _
      rw [ih, h.carry, column]
      rfl

end Chip

end Trainer51
