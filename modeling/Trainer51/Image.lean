import Trainer51.Store

/-!
# Program images

A program image says which bytes go to which code addresses.  It is sparse: addresses without a
byte stay apart from addresses that hold zero.
-/

namespace Trainer51

/-- Why a file is no program image. -/
inductive RecordFault where
  | missingColon
  | badDigit
  | truncated
  | checksum (expected found : Byte)
  | unsupported (kind : Byte)
  | outOfRange
  deriving DecidableEq, Repr

inductive ImageError where
  | empty
  /-- The record on line `line`, counted from 1, is at fault. -/
  | record (line : Nat) (fault : RecordFault)
  /-- A binary dump of `size` bytes is larger than program memory. -/
  | tooLarge (size : Nat)
  deriving DecidableEq, Repr

/-- A byte, if any, for each of the 64K code addresses. -/
structure Image where
  cells : Store64K (Option Byte)

/-- Consecutive bytes from an address on. -/
structure Run where
  start : Word
  bytes : List Byte
  deriving DecidableEq, Repr

namespace Image

def empty : Image := ⟨Vector.replicate _ none⟩

/-- The byte at an address. -/
def get? (image : Image) (a : Word) : Option Byte := image.cells.read a

/-- `image` with `bytes` from address `a` on; a later byte wins over an earlier one. -/
def write (image : Image) (a : Word) (bytes : List Byte) : Image :=
  ⟨image.cells.writeAll a (bytes.map some)⟩

/-- The addresses that hold a byte, ascending, with it. -/
def toList (image : Image) : List (Word × Byte) :=
  image.cells.toList.zipIdx.filterMap fun (cell, i) => cell.map (UInt16.ofNat i, ·)

/-- How many bytes the image holds. -/
def size (image : Image) : Nat := image.toList.length

/-- Put a byte in front of the runs of higher addresses. -/
def Run.cons (entry : Word × Byte) : List Run → List Run
  | [] => [⟨entry.1, [entry.2]⟩]
  | run :: runs =>
    if entry.1.toNat + 1 = run.start.toNat then ⟨entry.1, entry.2 :: run.bytes⟩ :: runs
    else ⟨entry.1, [entry.2]⟩ :: run :: runs

/-- The maximal stretches of consecutive addresses, ascending. -/
def runs (image : Image) : List Run := image.toList.foldr Run.cons []

end Image

end Trainer51
