import Trainer51.Byte

/-!
# Stores

Cells numbered by a byte or by a word, so that no address is out of range.

    read (write m a v) b = if a = b then v else read m b      (Store256.read_write and
                                                               Store64K.read_write)
-/

namespace Trainer51

/-- A cell for every byte. -/
abbrev Store256 (α : Type) := Vector α 0x100

/-- A cell for every word. -/
abbrev Store64K (α : Type) := Vector α 0x10000

namespace Store256

variable {α : Type}

def read (m : Store256 α) (a : Byte) : α :=
  have : a.toNat < 0x100 := a.toNat_lt
  m[a.toNat]

def write (m : Store256 α) (a : Byte) (v : α) : Store256 α :=
  m.set a.toNat v a.toNat_lt

end Store256

namespace Store64K

variable {α : Type}

def read (m : Store64K α) (a : Word) : α :=
  have : a.toNat < 0x10000 := a.toNat_lt
  m[a.toNat]

def write (m : Store64K α) (a : Word) (v : α) : Store64K α :=
  m.set a.toNat v a.toNat_lt

/-- `m` with `vs` from address `a` on, wrapping at the end; a later value wins. -/
def writeAll (m : Store64K α) (a : Word) (vs : List α) : Store64K α :=
  (vs.foldl (fun (s : Store64K α × Word) v => (s.1.write s.2 v, s.2 + 1)) (m, a)).1

end Store64K

/-! ## Lemmas -/

theorem Store256.read_replicate {α : Type} (v : α) (a : Byte) :
    read (Vector.replicate _ v) a = v := by
  simp [read]

theorem Store256.read_write {α : Type} (m : Store256 α) (a b : Byte) (v : α) :
    read (write m a v) b = if a = b then v else read m b := by
  simp [read, write, Vector.getElem_set, UInt8.toNat_inj]

theorem Store64K.read_replicate {α : Type} (v : α) (a : Word) :
    read (Vector.replicate _ v) a = v := by
  simp [read]

theorem Store64K.read_write {α : Type} (m : Store64K α) (a b : Word) (v : α) :
    read (write m a v) b = if a = b then v else read m b := by
  simp [read, write, Vector.getElem_set, UInt16.toNat_inj]

end Trainer51
