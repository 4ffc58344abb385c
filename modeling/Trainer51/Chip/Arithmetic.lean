import Trainer51.Byte

/-!
# Arithmetic of the accumulator

Sums and differences of bytes with the flags that go with them, the decimal adjustment, products,
quotients and rotations.  A carry is seen on the numbers, an overflow on the signs: those of the
operands allow it, and the result does not have the sign of the first one.
-/

namespace Trainer51

/-- A result with the carry, overflow and auxiliary carry flags it leaves. -/
structure Arithmetic where
  value : Byte
  carry : Bool
  overflow : Bool
  /-- The carry out of the low nibble. -/
  auxiliary : Bool
  deriving DecidableEq, Repr

/-- `a + b`, plus one with a carry. -/
def addWithCarry (a b : Byte) (carry : Bool) : Arithmetic :=
  let value := a + b + carry.toUInt8
  { value
    carry := 255 < a.toNat + b.toNat + carry.toNat
    overflow := !(a ^^^ b).bit 7 && (a ^^^ value).bit 7
    auxiliary := 15 < a.toNat % 16 + b.toNat % 16 + carry.toNat }

/-- `a - b`, less one with a borrow; the carries are borrows. -/
def subtractWithBorrow (a b : Byte) (borrow : Bool) : Arithmetic :=
  let value := a - b - borrow.toUInt8
  { value
    carry := a.toNat < b.toNat + borrow.toNat
    overflow := (a ^^^ b).bit 7 && (a ^^^ value).bit 7
    auxiliary := a.toNat % 16 < b.toNat % 16 + borrow.toNat }

/-- Turn a binary sum of two packed decimal bytes, with its carries, into the decimal sum and its
carry: six is added to each digit that went past nine. -/
def decimalAdjust (a : Byte) (carry auxiliary : Bool) : Byte × Bool :=
  let low := if 9 < a.toNat % 16 || auxiliary then a.toNat + 6 else a.toNat
  let carry := carry || 255 < low
  let high := if 9 < low % 256 / 16 || carry then low + 0x60 else low
  (UInt8.ofNat high, carry || 255 < high)

/-- Low and high byte of the product, and whether the high byte is in use. -/
def multiply (a b : Byte) : Byte × Byte × Bool :=
  let product := a.toNat * b.toNat
  (UInt8.ofNat product, UInt8.ofNat (product / 256), 255 < product)

/-- Quotient and remainder; dividing by zero keeps both bytes and reports an overflow. -/
def divide (a b : Byte) : Byte × Byte × Bool :=
  if b = 0 then (a, b, true) else (a / b, a % b, false)

def rotateLeft (a : Byte) : Byte := (a <<< 1) ||| (a >>> 7)

def rotateRight (a : Byte) : Byte := (a >>> 1) ||| (a <<< 7)

/-- The nine bits of carry and byte moved up by one. -/
def rotateLeftThrough (a : Byte) (carry : Bool) : Byte × Bool :=
  ((a <<< 1) ||| carry.toUInt8, a.bit 7)

/-- The nine bits of carry and byte moved down by one. -/
def rotateRightThrough (a : Byte) (carry : Bool) : Byte × Bool :=
  ((a >>> 1) ||| (carry.toUInt8 <<< 7), a.bit 0)

end Trainer51
