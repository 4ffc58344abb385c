/-!
# The window on a memory table

The part of a long table that is on screen.  Rows have a height and the window an extent, both in
units of the screen; the window begins `offset` units below the top of the table.  Offsets are
numbers of 32 bits.
-/

namespace Trainer51

structure MemoryWindow where
  rowHeight : Nat
  extent : Nat
  offset : Nat
  /-- How many rows the table has. -/
  length : Nat
  deriving DecidableEq, Repr

namespace MemoryWindow

/-- The largest offset that can be written down. -/
def offsetLimit : Nat := 0xFFFFFFFF

/-- A window on an empty table; a row is at least one unit high. -/
def new (rowHeight extent : Nat) : MemoryWindow := ⟨max rowHeight 1, extent, 0, 0⟩

/-! ## What is visible -/

/-- How many rows fit, a row shown in part included. -/
def visibleCount (w : MemoryWindow) : Nat := (w.extent + w.rowHeight - 1) / w.rowHeight

/-- The offset at which the window reaches the end of the table. -/
def maxOffset (w : MemoryWindow) : Nat := min (w.length * w.rowHeight) offsetLimit - w.extent

/-- The first visible row. -/
def first (w : MemoryWindow) : Nat := min (w.offset / w.rowHeight) w.length

/-- The row after the last visible one. -/
def past (w : MemoryWindow) : Nat := min (w.first + w.visibleCount) w.length

/-- The visible part of a table. -/
def visible {α : Type} (w : MemoryWindow) (table : Array α) : Array α :=
  table.extract w.first w.past

/-! ## Moving the window -/

/-- Move the window up as far as needed for it to stay on the table. -/
def clamp (w : MemoryWindow) : MemoryWindow := { w with offset := min w.offset w.maxOffset }

def setLength (w : MemoryWindow) (length : Nat) : MemoryWindow := { w with length }.clamp

def resize (w : MemoryWindow) (extent : Nat) : MemoryWindow := { w with extent }.clamp

/-- Back to the top. -/
def reset (w : MemoryWindow) : MemoryWindow := { w with offset := 0 }

def scrollTo (w : MemoryWindow) (offset : Nat) : MemoryWindow := { w with offset }.clamp

/-- Move by a distance, down if it is positive.  The distance and the new offset may be any numbers
here; that they do not fit into 64 bits is left out. -/
def scrollBy (w : MemoryWindow) (delta : Int) : MemoryWindow :=
  w.scrollTo (min (w.offset + delta).toNat offsetLimit)

/-- Move by whole rows, any number of them: that the product does not fit into 64 bits is left out,
as in `scrollBy`. -/
def scrollRows (w : MemoryWindow) (rows : Int) : MemoryWindow := w.scrollBy (rows * w.rowHeight)

/-- Move just enough to show a row; its position is cut to 32 bits. -/
def scrollToRow (w : MemoryWindow) (row : Nat) : MemoryWindow :=
  let top := row * w.rowHeight
  let bottom := top + w.rowHeight
  if w.length ≤ row then w
  else if row < w.first then w.scrollTo (top % (offsetLimit + 1))
  else if w.past ≤ row ∨ w.offset + w.extent < bottom then
    w.scrollTo ((bottom - w.extent) % (offsetLimit + 1))
  else w

/-! ## Lemmas -/

/-- The window does not go beyond the end of the table. -/
def Fits (w : MemoryWindow) : Prop := w.offset ≤ w.maxOffset

theorem fits_clamp (w : MemoryWindow) : w.clamp.Fits := Nat.min_le_right _ _

theorem fits_setLength (w : MemoryWindow) (length : Nat) : (w.setLength length).Fits :=
  fits_clamp _

theorem fits_resize (w : MemoryWindow) (extent : Nat) : (w.resize extent).Fits := fits_clamp _

theorem fits_scrollRows (w : MemoryWindow) (rows : Int) : (w.scrollRows rows).Fits := fits_clamp _

theorem Fits.scrollToRow {w : MemoryWindow} (h : w.Fits) (row : Nat) : (w.scrollToRow row).Fits := by
  unfold MemoryWindow.scrollToRow
  dsimp only
  split
  · exact h
  · split
    · exact fits_clamp _
    · split
      · exact fits_clamp _
      · exact h

end MemoryWindow

end Trainer51
