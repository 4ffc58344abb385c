import Trainer51.MemoryWindow

/-!
# The window is always full and in bounds

A window that has been moved down ends on the table, so the rows it begins and ends with can be
counted from its offset and its extent alone: it never shows rows that are not there, nor fewer than
it has room for.  The bound on the offset is what every operation restores.

    w.InBounds → (w.perform operation).InBounds                              (InBounds.perform)
    w.InBounds → w.past - w.first = min w.visibleCount w.length              (InBounds.full)
    the window cuts a table into what is above it, what it shows and the rest   (exists_visible)
    all of it after every script                                             (full_after_new)
-/

namespace Trainer51

/-- What can be done to a window.  Only an extent is taken as it is, so only an extent has to be a
number of 32 bits; offsets and distances that go too far are cut. -/
inductive WindowOperation where
  | setLength (length : Nat)
  | resize (extent : UInt32)
  | reset
  | scrollTo (offset : Nat)
  | scrollBy (delta : Int)
  | scrollRows (rows : Int)
  | scrollToRow (row : Nat)

namespace MemoryWindow

def perform (w : MemoryWindow) : WindowOperation → MemoryWindow
  | .setLength length => w.setLength length
  | .resize extent => w.resize extent.toNat
  | .reset => w.reset
  | .scrollTo offset => w.scrollTo offset
  | .scrollBy delta => w.scrollBy delta
  | .scrollRows rows => w.scrollRows rows
  | .scrollToRow row => w.scrollToRow row

/-- The window that a script leaves. -/
def after (w : MemoryWindow) (script : List WindowOperation) : MemoryWindow :=
  script.foldl perform w

/-! ## The bounds -/

/-- As many rows as it takes to fill the extent. -/
theorem visibleCount_le_iff_extent_le (w : MemoryWindow) (rowHeight : 0 < w.rowHeight)
    (rows : Nat) : w.visibleCount ≤ rows ↔ w.extent ≤ rows * w.rowHeight := by
  unfold visibleCount
  rw [Nat.div_le_iff_le_mul rowHeight]
  omega

/-- The offset never leaves the table, so the first row need not be cut to its length. -/
theorem Fits.first_eq {w : MemoryWindow} (h : w.Fits) :
    w.first = w.offset / w.rowHeight := by
  have fits : w.offset ≤ min (w.length * w.rowHeight) offsetLimit - w.extent := h
  have inside : w.offset ≤ w.rowHeight * w.length := by
    rw [Nat.mul_comm]
    omega
  exact Nat.min_eq_left (Nat.div_le_of_le_mul inside)

/-- What every operation restores: rows have a height, the extent is a number of 32 bits, and the
window does not go beyond the end of the table. -/
structure InBounds (w : MemoryWindow) : Prop where
  rowHeight : 0 < w.rowHeight
  extent : w.extent ≤ offsetLimit
  fits : w.Fits

theorem extent_le (extent : UInt32) : extent.toNat ≤ offsetLimit :=
  Nat.le_of_lt_succ extent.toNat_lt

theorem inBounds_new (rowHeight : Nat) (extent : UInt32) :
    (new rowHeight extent.toNat).InBounds where
  rowHeight := by
    show 0 < max rowHeight 1
    omega
  extent := extent_le extent
  fits := Nat.zero_le _

namespace InBounds

variable {w : MemoryWindow}

theorem scrollTo (h : w.InBounds) (offset : Nat) : (w.scrollTo offset).InBounds :=
  ⟨h.rowHeight, h.extent, fits_clamp _⟩

theorem scrollToRow (h : w.InBounds) (row : Nat) : (w.scrollToRow row).InBounds := by
  unfold MemoryWindow.scrollToRow
  dsimp only
  split
  · exact h
  · split
    · exact h.scrollTo _
    · split
      · exact h.scrollTo _
      · exact h

theorem perform (h : w.InBounds) (operation : WindowOperation) :
    (w.perform operation).InBounds := by
  cases operation with
  | setLength length => exact ⟨h.rowHeight, h.extent, fits_setLength w length⟩
  | resize extent => exact ⟨h.rowHeight, extent_le extent, fits_resize w extent.toNat⟩
  | reset => exact ⟨h.rowHeight, h.extent, Nat.zero_le _⟩
  | scrollTo offset => exact h.scrollTo offset
  | scrollBy delta => exact h.scrollTo _
  | scrollRows rows => exact h.scrollTo _
  | scrollToRow row => exact h.scrollToRow row

theorem after (h : w.InBounds) (script : List WindowOperation) : (w.after script).InBounds := by
  induction script generalizing w with
  | nil => exact h
  | cons operation script ih => exact ih (h.perform operation)

/-! ## Rows -/

/-- The far edge of the window can be written down, so the edge can be compared with a row's. -/
theorem edge_le (h : w.InBounds) : w.offset + w.extent ≤ offsetLimit := by
  have extent := h.extent
  have fits : w.offset ≤ min (w.length * w.rowHeight) offsetLimit - w.extent := h.fits
  omega

/-- A window that is not at the top ends on the table. -/
theorem top_or_edge_le (h : w.InBounds) :
    w.offset = 0 ∨ w.offset + w.extent ≤ w.length * w.rowHeight := by
  have fits : w.offset ≤ min (w.length * w.rowHeight) offsetLimit - w.extent := h.fits
  omega

theorem visibleCount_le_iff (h : w.InBounds) (rows : Nat) :
    w.visibleCount ≤ rows ↔ w.extent ≤ rows * w.rowHeight :=
  w.visibleCount_le_iff_extent_le h.rowHeight rows

/-- The rows that are begun above the window leave room on the table for those that fill it. -/
theorem first_add_visibleCount_le (h : w.InBounds)
    (edge : w.offset + w.extent ≤ w.length * w.rowHeight) :
    w.offset / w.rowHeight + w.visibleCount ≤ w.length := by
  have above : w.offset / w.rowHeight * w.rowHeight ≤ w.offset := Nat.div_mul_le_self _ _
  have begun : w.offset / w.rowHeight ≤ w.length := by
    refine Nat.le_of_mul_le_mul_right ?_ h.rowHeight
    omega
  have rest : w.visibleCount ≤ w.length - w.offset / w.rowHeight := by
    rw [h.visibleCount_le_iff, Nat.sub_mul]
    omega
  omega

/-- The window shows as many rows as it has room for, or the whole table. -/
theorem full (h : w.InBounds) : w.past - w.first = min w.visibleCount w.length := by
  have first : w.first = min (w.offset / w.rowHeight) w.length := rfl
  have past : w.past = min (w.first + w.visibleCount) w.length := rfl
  obtain top | edge := h.top_or_edge_le
  · rw [top, Nat.zero_div] at first
    omega
  · have room := h.first_add_visibleCount_le edge
    generalize w.offset / w.rowHeight = begun at first room
    omega

end InBounds

theorem first_le_past (w : MemoryWindow) : w.first ≤ w.past := by
  unfold past first
  omega

theorem past_le_length (w : MemoryWindow) : w.past ≤ w.length := Nat.min_le_right _ _

/-! ## Tables -/

/-- A window cuts any table in three, also one that has become shorter than the window was told:
both of its edges are then moved up to the end of the table. -/
theorem exists_visible {α : Type} (w : MemoryWindow) (table : Array α) :
    ∃ above below, table = above ++ w.visible table ++ below ∧
      above.size = min w.first (min w.past table.size) ∧
      above.size + (w.visible table).size = min w.past table.size := by
  have ordered := w.first_le_past
  refine ⟨table.extract 0 w.first, table.extract w.past table.size, ?_, ?_, ?_⟩
  · unfold visible
    rw [Array.extract_append_extract, Nat.max_eq_right ordered, Array.extract_append_extract,
      Nat.zero_min, Nat.zero_min, Array.extract_eq_self_of_le (Nat.le_max_right _ _)]
  · rw [Array.size_extract]
    omega
  · unfold visible
    rw [Array.size_extract, Array.size_extract]
    omega

/-! ## After every script -/

/-- All that a window shows is there, and it shows as much as it has room for. -/
structure Full (w : MemoryWindow) : Prop where
  ordered : w.first ≤ w.past
  inside : w.past ≤ w.length
  full : w.past - w.first = min w.visibleCount w.length
  /-- The far edge is a number of 32 bits as well. -/
  edge : w.offset + w.extent ≤ offsetLimit
  /-- Of a table of as many cells as the window was told, it shows the ones from the first visible
  row to the last. -/
  slice : ∀ {α : Type} (table : Array α), table.size = w.length →
    ∃ above below, table = above ++ w.visible table ++ below ∧ above.size = w.first ∧
      (w.visible table).size = w.past - w.first
  /-- Of any other table it shows a part that lies together. -/
  part : ∀ {α : Type} (table : Array α), ∃ above below, table = above ++ w.visible table ++ below

/-- **The window is always full and in bounds.**  Whatever the height of a row, the extents and the
lengths, and however the window has been moved: it ends on the table and shows as many rows as it
has room for, or all there are. -/
theorem full_after_new (rowHeight : Nat) (extent : UInt32) (script : List WindowOperation) :
    ((new rowHeight extent.toNat).after script).Full := by
  have bounds := (inBounds_new rowHeight extent).after script
  generalize (new rowHeight extent.toNat).after script = w at bounds
  have ordered := w.first_le_past
  have inside := w.past_le_length
  refine ⟨ordered, inside, bounds.full, bounds.edge_le, ?_, ?_⟩
  · intro α table size
    obtain ⟨above, below, cut, top, bottom⟩ := w.exists_visible table
    refine ⟨above, below, cut, ?_, ?_⟩ <;> omega
  · intro α table
    obtain ⟨above, below, cut, -, -⟩ := w.exists_visible table
    exact ⟨above, below, cut⟩

/-- Rows of height 20 in an extent of 50: a row begun above the window counts as visible. -/
example :
    let w := (new 20 50).after [.setLength 100, .scrollTo 30]
    w.first = 1 ∧ w.past = 4 ∧ (w.after [.scrollRows 1000]).past = 100 := by
  decide

end MemoryWindow

end Trainer51
