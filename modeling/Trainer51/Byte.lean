/-!
# Bytes, words and their bits

The registers of the chip are bytes and words of fixed width, with arithmetic that wraps.  A bit is
named by its position, 0 being the least significant; positions count modulo eight.

    bit (setBit b n on) m = if m % 8 = n % 8 then on else bit b m      (Byte.bit_setBit)
    ofBits (bits b) = b                                                (Byte.ofBits_bits)
    (∀ n, bit b n = bit c n) → b = c                                   (Byte.ext_bits)
    ofBytes (hi w) (lo w) = w                                          (Word.ofBytes_hi_lo)
-/

namespace Trainer51

abbrev Byte := UInt8

abbrev Word := UInt16

namespace Byte

/-! ## Bits of a byte -/

/-- The byte whose only set bit is the one at position `n`. -/
def mask (n : Nat) : Byte := 1 <<< UInt8.ofNat n

/-- Whether the bit at position `n` is set. -/
def bit (b : Byte) (n : Nat) : Bool := b &&& mask n != 0

/-- `b` with the bit at position `n` set or cleared and the others kept. -/
def setBit (b : Byte) (n : Nat) (on : Bool) : Byte :=
  if on then b ||| mask n else b &&& ~~~mask n

/-- The bits of a byte, most significant first. -/
def bits (b : Byte) : List Bool := [7, 6, 5, 4, 3, 2, 1, 0].map b.bit

/-- The byte whose bits are `bs`, most significant first. -/
def ofBits (bs : List Bool) : Byte :=
  bs.foldl (fun acc on => (acc <<< 1) ||| on.toUInt8) 0

/-- Whether an odd number of bits is set. -/
def oddOnes (b : Byte) : Bool := b.bits.foldl (· ^^ ·) false

/-- The two nibbles exchanged. -/
def swapNibbles (b : Byte) : Byte := (b <<< 4) ||| (b >>> 4)

end Byte

namespace Word

/-! ## Bytes of a word -/

/-- The word with high byte `hi` and low byte `lo`. -/
def ofBytes (hi lo : Byte) : Word := (hi.toUInt16 <<< 8) ||| lo.toUInt16

def hi (w : Word) : Byte := (w >>> 8).toUInt8

def lo (w : Word) : Byte := w.toUInt8

/-- A signed byte widened to a word. -/
def signExtend (b : Byte) : Word := if b < 0x80 then b.toUInt16 else b.toUInt16 ||| 0xFF00

end Word

/-! ## Lemmas -/

/-- A statement about every byte is a statement about the numbers below 256. -/
theorem Byte.forall_of_lt {p : Byte → Prop} (h : ∀ n, n < 256 → p (UInt8.ofNat n)) (b : Byte) :
    p b := by
  have := h b.toNat b.toNat_lt
  rwa [UInt8.ofNat_toNat] at this

theorem Byte.mask_mod (n : Nat) : mask (n % 8) = mask n := by
  apply UInt8.toNat_inj.1
  simp [mask, UInt8.toNat_shiftLeft]

theorem Byte.bit_mod (b : Byte) (n : Nat) : b.bit (n % 8) = b.bit n := by
  simp [bit, mask_mod]

theorem Byte.setBit_mod (b : Byte) (n : Nat) (on : Bool) : b.setBit (n % 8) on = b.setBit n on := by
  simp [setBit, mask_mod]

theorem Byte.toNat_mask (n : Nat) : (mask n).toNat = 1 <<< (n % 8) := by
  have h : ∀ k, k < 8 → (mask k).toNat = 1 <<< k := by decide +kernel
  rw [← mask_mod]
  exact h _ (Nat.mod_lt _ (by decide))

theorem Byte.bit_lt : ∀ k, k < 256 → ∀ n, n < 8 → bit (UInt8.ofNat k) n = k.testBit n := by
  decide +kernel

theorem Byte.bit_eq_testBit (b : Byte) (n : Nat) : bit b n = b.toNat.testBit (n % 8) := by
  have h := bit_lt b.toNat b.toNat_lt (n % 8) (Nat.mod_lt _ (by decide))
  rwa [UInt8.ofNat_toNat, bit_mod] at h

theorem Byte.testBit_complement : ∀ m, m < 8 → ∀ n, n < 8 →
    (255 - 1 <<< n).testBit m = decide (m ≠ n) := by
  decide +kernel

/-- Writing one bit changes that bit and no other. -/
theorem Byte.bit_setBit (b : Byte) (m n : Nat) (on : Bool) :
    bit (setBit b n on) m = if m % 8 = n % 8 then on else bit b m := by
  rw [bit_eq_testBit, bit_eq_testBit]
  have hc := testBit_complement (m % 8) (Nat.mod_lt _ (by decide)) (n % 8)
    (Nat.mod_lt _ (by decide))
  have h2 : (1 <<< (n % 8)).testBit (m % 8) = decide (n % 8 = m % 8) := by
    rw [Nat.one_shiftLeft]
    exact Nat.testBit_two_pow
  by_cases h : m % 8 = n % 8
  · rw [h] at hc h2 ⊢
    cases on <;> simp [setBit, toNat_mask, hc]
  · have h' : ¬ n % 8 = m % 8 := fun e => h e.symm
    cases on <;> simp [setBit, toNat_mask, hc, h2, h, h']

theorem Byte.ofBits_bits_lt : ∀ k, k < 256 → ofBits (bits (UInt8.ofNat k)) = UInt8.ofNat k := by
  decide +kernel

theorem Byte.ofBits_bits (b : Byte) : ofBits (bits b) = b :=
  forall_of_lt (p := fun b => ofBits (bits b) = b) ofBits_bits_lt b

/-- A byte is known by its bits. -/
theorem Byte.ext_bits {b c : Byte} (h : ∀ n, b.bit n = c.bit n) : b = c := by
  have same : b.bits = c.bits := List.map_congr_left fun n _ => h n
  rw [← ofBits_bits b, same, ofBits_bits]

/-- Writing a bit as it is changes nothing. -/
theorem Byte.setBit_bit (b : Byte) (n : Nat) : b.setBit n (b.bit n) = b := by
  refine ext_bits fun m => ?_
  rw [bit_setBit]
  split
  · next h => rw [← bit_mod b m, h, bit_mod]
  · rfl

theorem Byte.bit_and (b c : Byte) (n : Nat) : (b &&& c).bit n = (b.bit n && c.bit n) := by
  rw [bit_eq_testBit, bit_eq_testBit, bit_eq_testBit, UInt8.toNat_and, Nat.testBit_and]

theorem Byte.bit_zero (n : Nat) : bit 0 n = false := by
  rw [bit_eq_testBit]
  exact Nat.zero_testBit _

theorem Word.toNat_ofBytes (h l : Byte) : (ofBytes h l).toNat = 256 * h.toNat + l.toNat := by
  have hl := l.toNat_lt
  have hh := h.toNat_lt
  have e : (h.toNat <<< 8) ||| l.toNat = h.toNat * 256 + l.toNat := by
    rw [← Nat.shiftLeft_add_eq_or_of_lt (by simpa using hl)]
    simp [Nat.shiftLeft_eq]
  simp only [ofBytes, UInt16.toNat_or, UInt16.toNat_shiftLeft, UInt8.toNat_toUInt16]
  have e8 : (8 : UInt16).toNat % 16 = 8 := by decide
  rw [e8, Nat.mod_eq_of_lt (by rw [Nat.shiftLeft_eq]; omega), e]
  omega

/-- A word is made of its two bytes. -/
theorem Word.ofBytes_hi_lo (w : Word) : ofBytes w.hi w.lo = w := by
  have hw := w.toNat_lt
  apply UInt16.toNat_inj.1
  rw [toNat_ofBytes]
  have e : (8 : UInt16).toNat % 16 = 8 := by decide
  simp only [hi, lo, UInt16.toNat_toUInt8, UInt16.toNat_shiftRight, e, Nat.shiftRight_eq_div_pow]
  omega

theorem Word.hi_ofBytes (h l : Byte) : hi (ofBytes h l) = h := by
  have hl := l.toNat_lt
  have hh := h.toNat_lt
  apply UInt8.toNat_inj.1
  have e : (8 : UInt16).toNat % 16 = 8 := by decide
  simp only [hi, UInt16.toNat_toUInt8, UInt16.toNat_shiftRight, toNat_ofBytes, e,
    Nat.shiftRight_eq_div_pow]
  omega

theorem Word.lo_ofBytes (h l : Byte) : lo (ofBytes h l) = l := by
  have hl := l.toNat_lt
  apply UInt8.toNat_inj.1
  simp only [lo, UInt16.toNat_toUInt8, toNat_ofBytes]
  omega

end Trainer51
