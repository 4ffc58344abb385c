import Trainer51.Proofs.Chip.LongArithmetic

/-!
# Sums of decimal numbers

A byte holds two decimal digits, one in each nibble.  A binary sum of two such bytes, adjusted with
the carries that it leaves, is their decimal sum: it holds decimal digits again and carries at a
hundred.  So are the sums of numbers of any length.

    high * 16 + low is adjusted to the digits of high * 10 + low           (decimalAdjust_digits)
    r + 100 * carry' = x + y + carry, as decimal numbers       a column    (decimalSum_decimal)
-/

namespace Trainer51

/-! ## Decimal bytes -/

namespace Byte

/-- Both nibbles are decimal digits. -/
def IsDecimal (b : Byte) : Prop := b.toNat / 16 ≤ 9 ∧ b.toNat % 16 ≤ 9

instance (b : Byte) : Decidable b.IsDecimal := inferInstanceAs (Decidable (_ ∧ _))

/-- The number that two decimal digits are. -/
def decimal (b : Byte) : Nat := 10 * (b.toNat / 16) + b.toNat % 16

/-- The byte of two digits. -/
def ofDigits (high low : Nat) : Byte := UInt8.ofNat (16 * high + low)

theorem IsDecimal.decimal_lt {b : Byte} (h : b.IsDecimal) : b.decimal < 100 := by
  obtain ⟨high, low⟩ := h
  unfold decimal
  omega

section OfDigits

variable {high low : Nat} (hh : high ≤ 9) (hl : low ≤ 9)

include hh hl

theorem toNat_ofDigits : (ofDigits high low).toNat = 16 * high + low := by
  unfold ofDigits
  rw [UInt8.toNat_ofNat']
  omega

theorem isDecimal_ofDigits : (ofDigits high low).IsDecimal := by
  unfold IsDecimal
  rw [toNat_ofDigits hh hl]
  omega

theorem decimal_ofDigits : (ofDigits high low).decimal = 10 * high + low := by
  unfold decimal
  rw [toNat_ofDigits hh hl]
  omega

end OfDigits

end Byte

/-! ## One column -/

/-- The sums of the nibbles of two decimal bytes are adjusted to digits: the low one turns over at
ten into the high one, and the high one into the carry. -/
theorem decimalAdjust_digits : ∀ high < 19, ∀ low < 20,
    decimalAdjust (UInt8.ofNat (16 * high + low)) (255 < 16 * high + low) (15 < low) =
      (Byte.ofDigits ((high + low / 10) % 10) (low % 10), decide (10 ≤ high + low / 10)) := by
  decide +kernel

/-- The sum of two decimal bytes: the binary sum, adjusted with the carries that it leaves. -/
def decimalSum (x y : Byte) (carry : Bool) : Byte × Bool :=
  let sum := addWithCarry x y carry
  decimalAdjust sum.value sum.carry sum.auxiliary

section DecimalSum

variable {x y : Byte} (hx : x.IsDecimal) (hy : y.IsDecimal) (carry : Bool)

include hx hy

theorem decimalSum_eq :
    let high := x.toNat / 16 + y.toNat / 16
    let low := x.toNat % 16 + y.toNat % 16 + carry.toNat
    decimalSum x y carry =
      (Byte.ofDigits ((high + low / 10) % 10) (low % 10), decide (10 ≤ high + low / 10)) := by
  intro high low
  obtain ⟨hxh, hxl⟩ := hx
  obtain ⟨hyh, hyl⟩ := hy
  have one := carry.toNat_le
  have total : x.toNat + y.toNat + carry.toNat = 16 * high + low := by omega
  have value : x + y + carry.toUInt8 = UInt8.ofNat (16 * high + low) := by
    rw [← total]
    apply UInt8.toNat_inj.1
    simp [UInt8.toNat_add, toNat_toUInt8]
  unfold decimalSum addWithCarry
  dsimp only
  rw [value, total]
  exact decimalAdjust_digits high (by omega) low (by omega)

theorem isDecimal_decimalSum : (decimalSum x y carry).1.IsDecimal := by
  rw [decimalSum_eq hx hy]
  exact Byte.isDecimal_ofDigits (by omega) (by omega)

theorem decimalSum_decimal :
    (decimalSum x y carry).1.decimal + 100 * (decimalSum x y carry).2.toNat =
      x.decimal + y.decimal + carry.toNat := by
  obtain ⟨hxh, hxl⟩ := hx
  obtain ⟨hyh, hyl⟩ := hy
  have one := carry.toNat_le
  rw [decimalSum_eq ⟨hxh, hxl⟩ ⟨hyh, hyl⟩]
  dsimp only
  rw [Byte.decimal_ofDigits (by omega) (by omega)]
  unfold Byte.decimal
  by_cases carried : 10 ≤ x.toNat / 16 + y.toNat / 16 +
      (x.toNat % 16 + y.toNat % 16 + carry.toNat) / 10
  · simp only [carried, decide_true, Bool.toNat_true]
    omega
  · simp only [carried, decide_false, Bool.toNat_false]
    omega

end DecimalSum

/-! ## Any number of columns -/

/-- The number that decimal bytes are, the lowest byte first. -/
def littleEndianDecimal (bytes : List Byte) : Nat := positional 100 Byte.decimal bytes

/-- A sum of decimal numbers of `n` bytes: the bytes, the lowest first, and the carry. -/
structure IsDecimalSum (n : Nat) (xs ys : List Byte) (carryIn : Bool) (bytes : List Byte)
    (carry : Bool) : Prop where
  length : bytes.length = n
  decimal : ∀ b ∈ bytes, b.IsDecimal
  value : littleEndianDecimal bytes =
    (littleEndianDecimal xs + littleEndianDecimal ys + carryIn.toNat) % 100 ^ n
  carry : carry =
    decide (100 ^ n ≤ littleEndianDecimal xs + littleEndianDecimal ys + carryIn.toNat)

theorem isDecimalSum_columns {n : Nat} {xs ys : List Byte} (lx : xs.length = n) (ly : ys.length = n)
    (hx : ∀ x ∈ xs, x.IsDecimal) (hy : ∀ y ∈ ys, y.IsDecimal) (carry : Bool) :
    IsDecimalSum n xs ys carry ((columns Prod.snd decimalSum xs ys carry).map Prod.fst)
      (flagAfter Prod.snd carry (columns Prod.snd decimalSum xs ys carry)) := by
  let results := columns Prod.snd decimalSum xs ys carry
  subst lx
  have length : (results.map Prod.fst).length = xs.length :=
    (List.length_map _).trans (length_columns ly.symm carry)
  have decimal : ∀ b ∈ results.map Prod.fst, b.IsDecimal := by
    intro b hb
    obtain ⟨r, hr, rfl⟩ := List.mem_map.1 hb
    obtain ⟨x, mx, y, my, c, rfl⟩ := exists_of_mem_columns hr
    exact isDecimal_decimalSum (hx x mx) (hy y my) c
  have lt : littleEndianDecimal (results.map Prod.fst) < 100 ^ xs.length :=
    length ▸ positional_lt (by decide) fun b hb => (decimal b hb).decimal_lt
  have total : littleEndianDecimal (results.map Prod.fst) +
      100 ^ xs.length * (flagAfter Prod.snd carry results).toNat =
        littleEndianDecimal xs + littleEndianDecimal ys + carry.toNat := by
    have bytes : littleEndianDecimal (results.map Prod.fst) =
        positional 100 (fun r => r.1.decimal) results := positional_map _ _
    rw [bytes]
    exact positional_columns_add Byte.IsDecimal 100 Byte.decimal
      (fun r : Byte × Bool => r.1.decimal) (fun x y c hx hy => decimalSum_decimal hx hy c) ly.symm
      hx hy carry
  obtain ⟨value, carried⟩ := eq_mod_of_add_carry lt total
  exact ⟨length, decimal, value, carried⟩

/-! ## Programs -/

/-- Add a byte and the carry to the accumulator, and adjust. -/
def decimalColumn (y : Byte) : List Instruction :=
  [.accumulate .addWithCarry (.immediate y), .decimalAdjust]

/-- The two instructions work out the decimal sum column by column. -/
theorem worksOut_decimalColumn (X P : Type) [ExternalBus X] [RegisterBus P] (code : Word → Byte) :
    Chip.WorksOut X P code decimalColumn decimalSum Prod.fst Prod.snd := by
  have column (c : Chip X P) (x y : Byte) : ∃ added : Core,
      (c.workColumn code decimalColumn x y).core =
        (added.setWithCarry (decimalSum x y c.core.carry)).updateParity := by
    let d := c.workColumn code AccumulatorOp.addWithCarry.column x y
    obtain ⟨loaded, added⟩ := core_workColumn code accumulate_addWithCarry c x y
    obtain ⟨carry, -, auxiliary⟩ := loaded.flag_setArithmetic (addWithCarry x y c.core.carry)
    have adjusted : decimalAdjust d.core.a d.core.carry (d.core.flag Psw.auxiliary) =
        decimalSum x y c.core.carry := by
      rw [Core.carry_eq_flag, added, carry, auxiliary]
      rfl
    exact ⟨d.core, congrArg (fun r => (d.core.setWithCarry r).updateParity) adjusted⟩
  constructor
  · intro c x y
    obtain ⟨added, core⟩ := column c x y
    rw [core]
    rfl
  · intro c x y
    obtain ⟨added, core⟩ := column c x y
    rw [core, Core.carry_updateParity]
    exact added.flag_setFlag _ _ _

/-- **Decimal sums of any number of bytes.**  Two numbers of `n` bytes with two decimal digits each,
added byte by byte from the lowest one on, each sum adjusted and each carry going into the next
byte, give the digits of their sum, and the carry says whether it has left the range of `n` bytes.
A program that takes the bytes in turn with the instructions for it gives the same. -/
theorem long_decimal_sums {n : Nat} (xs ys : List Byte) (lx : xs.length = n) (ly : ys.length = n)
    (hx : ∀ x ∈ xs, x.IsDecimal) (hy : ∀ y ∈ ys, y.IsDecimal) (carry : Bool) :
    let results := columns Prod.snd decimalSum xs ys carry
    IsDecimalSum n xs ys carry (results.map Prod.fst) (flagAfter Prod.snd carry results) ∧
      ∀ (X P : Type) [ExternalBus X] [RegisterBus P] (code : Word → Byte) (c : Chip X P),
        c.core.carry = carry →
          let worked := c.workColumns code decimalColumn xs ys
          worked.1 = results.map Prod.fst ∧
            worked.2.core.carry = flagAfter Prod.snd carry results := by
  intro results
  refine ⟨isDecimalSum_columns lx ly hx hy carry, ?_⟩
  rintro X P _ _ code c rfl
  have works := worksOut_decimalColumn X P code
  exact ⟨works.bytes c xs ys, works.flag works.carry c xs ys⟩

/-- `1289 + 8776`: in the lowest byte the six for the low digit carries out of the byte. -/
theorem long_decimal_sums_spilling :
    let results := columns Prod.snd decimalSum [0x89, 0x12] [0x76, 0x87] false
    (∀ x ∈ [(0x89 : Byte), 0x12], x.IsDecimal) ∧ (∀ y ∈ [(0x76 : Byte), 0x87], y.IsDecimal) ∧
      results.map Prod.fst = [0x65, 0x00] ∧ flagAfter Prod.snd false results = true ∧
      IsDecimalSum 2 [0x89, 0x12] [0x76, 0x87] false [0x65, 0x00] true := by
  intro results
  have hx : ∀ x ∈ [(0x89 : Byte), 0x12], x.IsDecimal :=
    List.forall_mem_cons.2 ⟨by decide, List.forall_mem_singleton.2 (by decide)⟩
  have hy : ∀ y ∈ [(0x76 : Byte), 0x87], y.IsDecimal :=
    List.forall_mem_cons.2 ⟨by decide, List.forall_mem_singleton.2 (by decide)⟩
  obtain ⟨isSum, -⟩ := long_decimal_sums [0x89, 0x12] [0x76, 0x87] rfl rfl hx hy false
  exact ⟨hx, hy, by decide, by decide, isSum⟩

end Trainer51
