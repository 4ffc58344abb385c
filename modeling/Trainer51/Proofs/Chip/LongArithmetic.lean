import Mathlib.Tactic.Linarith
import Trainer51.Proofs.Chip.Columns

/-!
# Sums and differences of several bytes

A sum and a difference differ in a sign.  What a byte operation has to do with its sign is stated
once, for one column, and gives the result and both flags of numbers of any length.

    the byte and the carry of a column are x + sign * (y + carry)              (Computes.value)
    the signs tell whether that, with signed x and y, needs more than a byte
                                                                      (exceedsSignedByte_eq)
    the bytes and the carry of n columns are X + sign * (Y + carry)          (Computes.amounts)
    the overflow says that X + sign * (Y + carry), with signed X and Y, needs more than n bytes
                                                                    (Computes.overflow_columns)
-/

namespace Trainer51

/-! ## Signed bytes -/

/-- A byte read as a two's complement number. -/
def Byte.signed (b : Byte) : Int := if b < 0x80 then b.toNat else b.toNat - 256

/-- Whether a number is outside the range of a signed byte. -/
def exceedsSignedByte (n : Int) : Bool := n < -128 || 127 < n

/-- Whether a byte is negative in two's complement. -/
def Byte.negative (b : Byte) : Bool := b.bit 7

theorem Byte.negative_eq (b : Byte) : b.negative = decide (128 ≤ b.toNat) := by
  have hb := b.toNat_lt
  refine (b.bit_eq_testBit 7).trans ((Nat.testBit_eq_decide_div_mod_eq).trans ?_)
  exact decide_eq_decide.2 (show b.toNat / 128 % 2 = 1 ↔ _ by omega)

theorem Byte.signed_eq (b : Byte) : b.signed = b.toNat - 256 * b.negative.toNat := by
  have low : b < 0x80 ↔ b.toNat < 128 := UInt8.lt_iff_toNat_lt
  unfold signed
  rw [negative_eq]
  by_cases h : 128 ≤ b.toNat
  · simp [h, low]
  · simp [h, low]

/-- The highest bit tells whether two bytes differ in sign. -/
theorem Byte.bit_xor_seven (a b : Byte) : (a ^^^ b).bit 7 = (a.negative != b.negative) := by
  unfold negative
  rw [bit_eq_testBit, bit_eq_testBit, bit_eq_testBit, UInt8.toNat_xor, Nat.testBit_xor]

/-! ## Numbers of several bytes -/

/-- The number that bytes are, the lowest byte first. -/
def littleEndian (bytes : List Byte) : Nat := positional 256 UInt8.toNat bytes

/-- The two's complement number that bytes are, the lowest byte first. -/
def signedLittleEndian (bytes : List Byte) : Int :=
  if 2 * littleEndian bytes < 256 ^ bytes.length then littleEndian bytes
  else littleEndian bytes - 256 ^ bytes.length

/-- Whether a number is outside the range of `n` bytes in two's complement, which reaches from
`-(256 ^ n / 2)` to `256 ^ n / 2 - 1`. -/
def exceedsSigned (n : Nat) (z : Int) : Bool := 2 * z < -256 ^ n || 256 ^ n ≤ 2 * z

theorem littleEndian_cons (b : Byte) (bytes : List Byte) :
    littleEndian (b :: bytes) = b.toNat + 256 * littleEndian bytes :=
  positional_cons _ _

theorem littleEndian_lt (bytes : List Byte) : littleEndian bytes < 256 ^ bytes.length :=
  positional_lt (by decide) fun b _ => b.toNat_lt

theorem signedLittleEndian_singleton (b : Byte) : signedLittleEndian [b] = b.signed := by
  have low : b < 0x80 ↔ b.toNat < 128 := UInt8.lt_iff_toNat_lt
  have value : littleEndian [b] = b.toNat := littleEndian_cons b []
  unfold signedLittleEndian Byte.signed
  simp only [value, low, List.length_singleton]
  split <;> split <;> omega

/-- Only the highest byte carries the sign. -/
theorem signedLittleEndian_cons (b : Byte) {bytes : List Byte} (h : bytes ≠ []) :
    signedLittleEndian (b :: bytes) = b.toNat + 256 * signedLittleEndian bytes := by
  have hb := b.toNat_lt
  -- the range is halved between the two signs
  have even : 2 ∣ 256 ^ bytes.length :=
    dvd_pow (by decide) fun e => h (List.length_eq_zero_iff.1 e)
  unfold signedLittleEndian
  rw [littleEndian_cons, List.length_cons, pow_succ]
  push_cast
  split <;> split <;> omega

theorem exceedsSigned_one (z : Int) : exceedsSigned 1 z = exceedsSignedByte z := by
  unfold exceedsSigned exceedsSignedByte
  rw [Bool.eq_iff_iff]
  simp only [Bool.or_eq_true, decide_eq_true_eq]
  omega

/-- A byte below the others does not bring a number into its range or out of it. -/
theorem exceedsSigned_succ {n : Nat} (pos : 0 < n) {low : Int} (nonneg : 0 ≤ low)
    (lt : low < 256) (z : Int) : exceedsSigned (n + 1) (low + 256 * z) = exceedsSigned n z := by
  have even : (2 : Int) ∣ 256 ^ n := dvd_pow (by decide) (Nat.ne_of_gt pos)
  unfold exceedsSigned
  rw [Bool.eq_iff_iff, pow_succ]
  simp only [Bool.or_eq_true, decide_eq_true_eq]
  omega

/-! ## One column -/

/-- An operation on bytes gives the byte, the carry and the overflow of `x + sign * (y + carry)`. -/
structure Computes (sign : Int) (op : Byte → Byte → Bool → Arithmetic) : Prop where
  value : ∀ x y carry, ((op x y carry).value.toNat : Int) =
    x.toNat + sign * (y.toNat + carry.toNat - 256 * (op x y carry).carry.toNat)
  overflow : ∀ x y carry, (op x y carry).overflow =
    exceedsSignedByte (x.signed + sign * (y.signed + carry.toNat))

/-- A sum leaves the range when the operands agree in sign, a difference when they do not, and the
result then has not the sign of the first operand. -/
theorem exceedsSignedByte_eq {sign : Int} (unit : sign = 1 ∨ sign = -1) {x y r : Byte}
    {carry carried : Bool} (value : (r.toNat : Int) =
      x.toNat + sign * (y.toNat + carry.toNat - 256 * carried.toNat)) :
    exceedsSignedByte (x.signed + sign * (y.signed + carry.toNat)) =
      ((x.negative == y.negative) == decide (sign = 1) && x.negative != r.negative) := by
  have hx := x.toNat_lt
  have hy := y.toNat_lt
  have hr := r.toNat_lt
  have one := carry.toNat_le
  have one' := carried.toNat_le
  rw [x.signed_eq, y.signed_eq, exceedsSignedByte]
  simp only [Byte.negative_eq]
  rcases unit with rfl | rfl <;> by_cases p : 128 ≤ x.toNat <;> by_cases q : 128 ≤ y.toNat <;>
    by_cases s : 128 ≤ r.toNat <;> simp [p, q, s] <;> omega

theorem toNat_toUInt8 (b : Bool) : b.toUInt8.toNat = b.toNat := by
  cases b <;> rfl

theorem value_addWithCarry (x y : Byte) (carry : Bool) :
    ((addWithCarry x y carry).value.toNat : Int) =
      x.toNat + 1 * (y.toNat + carry.toNat - 256 * (addWithCarry x y carry).carry.toNat) := by
  have hx := x.toNat_lt
  have hy := y.toNat_lt
  have one := carry.toNat_le
  have sum : (x + y + carry.toUInt8).toNat = (x.toNat + y.toNat + carry.toNat) % 256 := by
    simp [UInt8.toNat_add, toNat_toUInt8]
  simp only [addWithCarry, sum]
  by_cases carried : 255 < x.toNat + y.toNat + carry.toNat
  · simp only [carried, decide_true, Bool.toNat_true]
    omega
  · simp only [carried, decide_false, Bool.toNat_false]
    omega

theorem computes_addWithCarry : Computes 1 addWithCarry where
  value := value_addWithCarry
  overflow x y carry := by
    rw [exceedsSignedByte_eq (.inl rfl) (value_addWithCarry x y carry)]
    simp only [addWithCarry, Byte.bit_xor_seven]
    cases x.negative <;> cases y.negative <;> rfl

theorem value_subtractWithBorrow (x y : Byte) (borrow : Bool) :
    ((subtractWithBorrow x y borrow).value.toNat : Int) = x.toNat + -1 *
      (y.toNat + borrow.toNat - 256 * (subtractWithBorrow x y borrow).carry.toNat) := by
  have hx := x.toNat_lt
  have hy := y.toNat_lt
  have one := borrow.toNat_le
  have difference : (x - y - borrow.toUInt8).toNat =
      (512 + x.toNat - y.toNat - borrow.toNat) % 256 := by
    simp only [UInt8.toNat_sub, toNat_toUInt8]
    omega
  simp only [subtractWithBorrow, difference]
  by_cases under : x.toNat < y.toNat + borrow.toNat
  · simp only [under, decide_true, Bool.toNat_true]
    omega
  · simp only [under, decide_false, Bool.toNat_false]
    omega

theorem computes_subtractWithBorrow : Computes (-1) subtractWithBorrow where
  value := value_subtractWithBorrow
  overflow x y borrow := by
    rw [exceedsSignedByte_eq (.inr rfl) (value_subtractWithBorrow x y borrow)]
    simp only [subtractWithBorrow, Byte.bit_xor_seven]
    cases x.negative <;> cases y.negative <;> rfl

/-! ## Any number of columns -/

/-- Bytes, the lowest first, and the flags that the highest one leaves. -/
structure LongResult where
  bytes : List Byte
  carry : Bool
  overflow : Bool
  deriving DecidableEq

/-- What columns leave, with the flags as they were before the lowest one. -/
def LongResult.ofColumns (carry overflow : Bool) (results : List Arithmetic) : LongResult where
  bytes := results.map Arithmetic.value
  carry := flagAfter Arithmetic.carry carry results
  overflow := flagAfter Arithmetic.overflow overflow results

/-- The result of `X + sign * (Y + carry)` for numbers of `n` bytes. -/
structure LongResult.Amounts (r : LongResult) (sign : Int) (n : Nat) (xs ys : List Byte)
    (carryIn : Bool) : Prop where
  length : r.bytes.length = n
  value : (littleEndian r.bytes : Int) = littleEndian xs +
    sign * (littleEndian ys + carryIn.toNat - 256 ^ n * r.carry.toNat)
  overflow : r.overflow = exceedsSigned n
    (signedLittleEndian xs + sign * (signedLittleEndian ys + carryIn.toNat))

namespace Computes

variable {sign : Int} {op : Byte → Byte → Bool → Arithmetic}

/-- The overflow of the highest column says whether the signed numbers have left their range. -/
theorem overflow_columns (h : Computes sign op) {xs ys : List Byte} (same : xs.length = ys.length)
    (ne : xs ≠ []) (carry before : Bool) :
    flagAfter Arithmetic.overflow before (columns Arithmetic.carry op xs ys carry) =
      exceedsSigned xs.length
        (signedLittleEndian xs + sign * (signedLittleEndian ys + carry.toNat)) := by
  induction xs generalizing ys carry before with
  | nil => exact absurd rfl ne
  | cons x xs ih =>
    cases ys with
    | nil => cases same
    | cons y ys =>
      replace same := Nat.succ.inj same
      by_cases single : xs = []
      · subst single
        obtain rfl := List.length_eq_zero_iff.1 same.symm
        simp only [columns, flagAfter, List.foldl_cons, List.foldl_nil, List.length_singleton,
          signedLittleEndian_singleton, exceedsSigned_one, h.overflow]
      · have others : ys ≠ [] := fun e =>
          single (List.length_eq_zero_iff.1 (same.trans (congrArg List.length e)))
        let r := op x y carry
        -- the lowest column leaves its byte and hands on its carry
        have lowest := h.value x y carry
        have total : signedLittleEndian (x :: xs) +
              sign * (signedLittleEndian (y :: ys) + carry.toNat) =
            r.value.toNat + 256 *
              (signedLittleEndian xs + sign * (signedLittleEndian ys + r.carry.toNat)) := by
          rw [signedLittleEndian_cons x single, signedLittleEndian_cons y others, lowest]
          ring
        have highest := ih same single r.carry r.overflow
        have small : (r.value.toNat : Int) < 256 := by exact_mod_cast r.value.toNat_lt
        rw [total, List.length_cons,
          exceedsSigned_succ (List.length_pos_iff.2 single) (Int.natCast_nonneg _) small, ← highest]
        rfl

theorem amounts (h : Computes sign op) {n : Nat} (pos : 0 < n) {xs ys : List Byte}
    (hx : xs.length = n) (hy : ys.length = n) (carry overflow : Bool) :
    (LongResult.ofColumns carry overflow (columns Arithmetic.carry op xs ys carry)).Amounts
      sign n xs ys carry := by
  subst hx
  let results := columns Arithmetic.carry op xs ys carry
  have value : littleEndian (results.map Arithmetic.value) =
      positional 256 (fun r => r.value.toNat) results := positional_map _ _
  refine ⟨?_, ?_, h.overflow_columns hy.symm (List.ne_nil_of_length_pos pos) carry overflow⟩
  · exact (List.length_map _).trans (length_columns hy.symm carry)
  · have all := positional_columns (fun _ => True) 256 UInt8.toNat
      (fun r : Arithmetic => r.value.toNat) (fun x y carry _ _ => h.value x y carry) hy.symm
      (fun _ _ => trivial) (fun _ _ => trivial) carry
    exact (congrArg Nat.cast value).trans all

end Computes

/-! ## Sums and differences -/

/-- The sum of two numbers of `n` bytes and a carry. -/
structure LongResult.IsSum (r : LongResult) (n : Nat) (xs ys : List Byte) (carryIn : Bool) :
    Prop where
  length : r.bytes.length = n
  value : littleEndian r.bytes = (littleEndian xs + littleEndian ys + carryIn.toNat) % 256 ^ n
  carry : r.carry = decide (256 ^ n ≤ littleEndian xs + littleEndian ys + carryIn.toNat)
  overflow : r.overflow =
    exceedsSigned n (signedLittleEndian xs + signedLittleEndian ys + carryIn.toNat)

/-- The difference of two numbers of `n` bytes, less a borrow. -/
structure LongResult.IsDifference (r : LongResult) (n : Nat) (xs ys : List Byte) (borrow : Bool) :
    Prop where
  length : r.bytes.length = n
  value : (littleEndian r.bytes : Int) =
    (littleEndian xs - littleEndian ys - borrow.toNat) % 256 ^ n
  carry : r.carry = decide (littleEndian xs < littleEndian ys + borrow.toNat)
  overflow : r.overflow =
    exceedsSigned n (signedLittleEndian xs - signedLittleEndian ys - borrow.toNat)

namespace LongResult.Amounts

variable {r : LongResult} {n : Nat} {xs ys : List Byte} {carryIn : Bool}

theorem isSum (h : r.Amounts 1 n xs ys carryIn) : r.IsSum n xs ys carryIn := by
  have lt := littleEndian_lt r.bytes
  have value := h.value
  rw [h.length] at lt
  have total : littleEndian r.bytes + 256 ^ n * r.carry.toNat =
      littleEndian xs + littleEndian ys + carryIn.toNat := by
    zify
    rw [value]
    ring
  obtain ⟨value, carry⟩ := eq_mod_of_add_carry lt total
  refine ⟨h.length, value, carry, h.overflow.trans ?_⟩
  rw [Int.one_mul, Int.add_assoc]

theorem isDifference (h : r.Amounts (-1) n xs ys carryIn) : r.IsDifference n xs ys carryIn := by
  have lt := littleEndian_lt r.bytes
  have value := h.value
  rw [h.length] at lt
  have total : (littleEndian xs - littleEndian ys - carryIn.toNat : Int) =
      littleEndian r.bytes + 256 ^ n * -r.carry.toNat := by
    rw [value]
    ring
  refine ⟨h.length, ?_, ?_, h.overflow.trans ?_⟩
  · rw [total, Int.add_mul_emod_self_left, Int.emod_eq_of_lt (Int.natCast_nonneg _)]
    exact_mod_cast lt
  · have lt' : (littleEndian r.bytes : Int) < 256 ^ n := by exact_mod_cast lt
    cases borrowed : r.carry with
    | false =>
      simp only [borrowed, Bool.toNat_false, Nat.cast_zero, neg_zero, mul_zero] at total
      exact (decide_eq_false (by omega)).symm
    | true =>
      simp only [borrowed, Bool.toNat_true, Nat.cast_one, mul_neg, mul_one] at total
      exact (decide_eq_true (by omega)).symm
  · congr 1
    ring

end LongResult.Amounts

/-! ## Programs -/

/-- Combine a byte with the accumulator and the carry. -/
def AccumulatorOp.column (op : AccumulatorOp) (y : Byte) : List Instruction :=
  [.accumulate op (.immediate y)]

/-- What a program has stored, and the flags of the chip in the end. -/
def LongResult.ofProgram {X P : Type} (worked : List Byte × Chip X P) : LongResult :=
  ⟨worked.1, worked.2.core.carry, worked.2.core.flag Psw.overflow⟩

theorem Core.flag_setArithmetic (c : Core) (r : Arithmetic) :
    (c.setArithmetic r).updateParity.flag Psw.carry = r.carry ∧
      (c.setArithmetic r).updateParity.flag Psw.overflow = r.overflow ∧
      (c.setArithmetic r).updateParity.flag Psw.auxiliary = r.auxiliary := by
  simp [setArithmetic, updateParity, setCarry, flag_setFlag, Psw.carry, Psw.overflow,
    Psw.auxiliary, Psw.parity]

theorem accumulate_addWithCarry (c : Core) (y : Byte) :
    c.accumulate .addWithCarry y = c.setArithmetic (addWithCarry c.a y c.carry) := rfl

theorem accumulate_subtractWithBorrow (c : Core) (y : Byte) :
    c.accumulate .subtractWithBorrow y = c.setArithmetic (subtractWithBorrow c.a y c.carry) := rfl

theorem Core.carry_updateParity (c : Core) : c.updateParity.carry = c.carry :=
  c.flag_setFlag _ _ _

section Programs

variable {X P : Type} [ExternalBus X] [RegisterBus P] (code : Word → Byte) {op : AccumulatorOp}
  {f : Byte → Byte → Bool → Arithmetic}
  (h : ∀ (c : Core) y, c.accumulate op y = c.setArithmetic (f c.a y c.carry))

include h

theorem core_workColumn (c : Chip X P) (x y : Byte) : ∃ loaded : Core,
    (c.workColumn code op.column x y).core =
      (loaded.setArithmetic (f x y c.core.carry)).updateParity := by
  let loaded := { c.core with a := x }.updateParity
  have carry : loaded.carry = c.core.carry := Core.carry_updateParity _
  refine ⟨loaded, ?_⟩
  rw [← carry]
  exact congrArg Core.updateParity (h loaded y)

/-- The instruction works out its operation column by column. -/
theorem worksOut_column : Chip.WorksOut X P code op.column f Arithmetic.value Arithmetic.carry where
  byte c x y := by
    obtain ⟨loaded, core⟩ := core_workColumn code h c x y
    rw [core]
    rfl
  carry c x y := by
    obtain ⟨loaded, core⟩ := core_workColumn code h c x y
    rw [core]
    exact (loaded.flag_setArithmetic _).1

theorem ofProgram_workColumns (c : Chip X P) (xs ys : List Byte) :
    LongResult.ofProgram (c.workColumns code op.column xs ys) =
      .ofColumns c.core.carry (c.core.flag Psw.overflow)
        (columns Arithmetic.carry f xs ys c.core.carry) := by
  have works := worksOut_column (X := X) (P := P) code h
  have overflows : ∀ (c : Chip X P) x y, (c.workColumn code op.column x y).core.flag Psw.overflow =
      Arithmetic.overflow (f x y c.core.carry) := by
    intro c x y
    obtain ⟨loaded, core⟩ := core_workColumn code h c x y
    rw [core]
    exact (loaded.flag_setArithmetic _).2.1
  have carry := works.flag works.carry c xs ys
  unfold LongResult.ofProgram LongResult.ofColumns
  rw [works.bytes, works.flag overflows]
  exact congrArg (LongResult.mk _ · _) carry

end Programs

/-- **Sums and differences of any number of bytes.**  Added or subtracted byte by byte from the
lowest one on, each carry going into the next byte, two numbers of `n` bytes give the bytes of their
sum or difference, the carry says whether it has left the range of `n` bytes, and the overflow says
the same of the signed numbers.  A program that takes the bytes in turn with the instructions for
it gives the same. -/
theorem long_sums_and_differences {n : Nat} (pos : 0 < n) (xs ys : List Byte)
    (hx : xs.length = n) (hy : ys.length = n) (carry overflow : Bool) :
    let sum := LongResult.ofColumns carry overflow
      (columns Arithmetic.carry addWithCarry xs ys carry)
    let difference := LongResult.ofColumns carry overflow
      (columns Arithmetic.carry subtractWithBorrow xs ys carry)
    sum.IsSum n xs ys carry ∧ difference.IsDifference n xs ys carry ∧
      ∀ (X P : Type) [ExternalBus X] [RegisterBus P] (code : Word → Byte) (c : Chip X P),
        c.core.carry = carry → c.core.flag Psw.overflow = overflow →
          LongResult.ofProgram
            (c.workColumns code AccumulatorOp.addWithCarry.column xs ys) = sum ∧
          LongResult.ofProgram
            (c.workColumns code AccumulatorOp.subtractWithBorrow.column xs ys) = difference := by
  intro sum difference
  refine ⟨(computes_addWithCarry.amounts pos hx hy carry overflow).isSum,
    (computes_subtractWithBorrow.amounts pos hx hy carry overflow).isDifference, ?_⟩
  rintro X P _ _ code c rfl rfl
  exact ⟨ofProgram_workColumns code accumulate_addWithCarry c xs ys,
    ofProgram_workColumns code accumulate_subtractWithBorrow c xs ys⟩

/-- `7FFFh + 1` does not fit into two signed bytes, and `8000h - 1` does not either. -/
theorem long_sums_and_differences_signed :
    let sum := LongResult.ofColumns true false
      (columns Arithmetic.carry addWithCarry [0xFF, 0x7F] [0x00, 0x00] true)
    let difference := LongResult.ofColumns true false
      (columns Arithmetic.carry subtractWithBorrow [0x00, 0x80] [0x00, 0x00] true)
    0 < 2 ∧ sum = ⟨[0x00, 0x80], false, true⟩ ∧ difference = ⟨[0xFF, 0x7F], false, true⟩ ∧
      sum.IsSum 2 [0xFF, 0x7F] [0x00, 0x00] true ∧
      difference.IsDifference 2 [0x00, 0x80] [0x00, 0x00] true := by
  intro sum difference
  have two : 0 < 2 := by decide
  obtain ⟨isSum, -, -⟩ :=
    long_sums_and_differences two [0xFF, 0x7F] [0x00, 0x00] rfl rfl true false
  obtain ⟨-, isDifference, -⟩ :=
    long_sums_and_differences two [0x00, 0x80] [0x00, 0x00] rfl rfl true false
  exact ⟨two, by decide, by decide, isSum, isDifference⟩

end Trainer51
