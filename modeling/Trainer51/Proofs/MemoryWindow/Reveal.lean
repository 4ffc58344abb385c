import Trainer51.Proofs.MemoryWindow.OnScreen

/-!
# Bringing a row into view

A row above the window becomes its first one and a row below it the last one, with no more movement
than that takes.  Positions are cut to 32 bits on the way, which does nothing to a table that ends
at a position of 32 bits; and the end of the table does not hold the window back, which never has
to go beyond the row.

    to a row above, to a row below, or not at all        (scrollToRow_above, scrollToRow_below,
                                                          scrollToRow_still)
    the rows above a window that ends with a given row                         (sub_extent_div)
    the row is shown, and where it should be                                         (revealed)
-/

namespace Trainer51.MemoryWindow

/-- The window is on its table, and the table ends at a position of 32 bits. -/
structure Spans (w : MemoryWindow) : Prop where
  rowHeight : 0 < w.rowHeight
  fits : w.Fits
  room : w.length * w.rowHeight ≤ offsetLimit

/-- The window `v`, moved from `w`, shows a row where it should. -/
structure Revealed (w v : MemoryWindow) (row : Nat) : Prop where
  shown : v.Shown row
  /-- A row above the window becomes the first one. -/
  above : row < w.first → v.first = row
  /-- A row below the window becomes the last one. -/
  below : w.past ≤ row → v.past = row + 1
  /-- The window stays where it is if it shows the row down to its end. -/
  still : w.Shown row → (row + 1) * w.rowHeight ≤ w.offset + w.extent → v = w
  /-- A window that has room for a row shows this one down to its end. -/
  whole : w.rowHeight ≤ w.extent → (row + 1) * w.rowHeight ≤ v.offset + v.extent

/-! ## Where the window moves to -/

theorem scrollToRow_still {w : MemoryWindow} {row : Nat} (shown : w.Shown row)
    (whole : (row + 1) * w.rowHeight ≤ w.offset + w.extent) : w.scrollToRow row = w := by
  rw [Nat.succ_mul] at whole
  have below : ¬(w.past ≤ row ∨ w.offset + w.extent < row * w.rowHeight + w.rowHeight) := by
    have := shown.2
    omega
  unfold scrollToRow
  dsimp only
  rw [if_neg (Nat.not_lt.2 shown.1), if_neg below, ite_self]

namespace Spans

variable {w : MemoryWindow} {row : Nat}

/-- The first row begins above the window or with it. -/
theorem first_mul_le (h : w.Spans) : w.first * w.rowHeight ≤ w.offset := by
  rw [h.fits.first_eq]
  exact Nat.div_mul_le_self _ _

/-- The window can be moved to every offset at which it ends on the table. -/
theorem scrollTo_mod (h : w.Spans) {offset : Nat}
    (inside : offset + w.extent ≤ w.length * w.rowHeight) :
    w.scrollTo (offset % (offsetLimit + 1)) = { w with offset } := by
  have room := h.room
  have written : offset % (offsetLimit + 1) = offset := Nat.mod_eq_of_lt (by omega)
  have fits : offset ≤ w.maxOffset := by
    unfold maxOffset
    omega
  rw [written]
  exact congrArg (fun offset => { w with offset }) (Nat.min_eq_left fits)

theorem scrollToRow_above (h : w.Spans) (above : row < w.first) :
    w.scrollToRow row = { w with offset := row * w.rowHeight } := by
  have inside : row < w.length := Nat.lt_of_lt_of_le above (Nat.min_le_right _ _)
  have rows : (row + 1) * w.rowHeight ≤ w.first * w.rowHeight := Nat.mul_le_mul_right _ above
  rw [Nat.succ_mul] at rows
  have first := h.first_mul_le
  have rowHeight := h.rowHeight
  have fits : w.offset ≤ min (w.length * w.rowHeight) offsetLimit - w.extent := h.fits
  unfold scrollToRow
  dsimp only
  rw [if_neg (Nat.not_le.2 inside), if_pos above, h.scrollTo_mod (by omega)]

/-- A row above the window ends above it. -/
theorem first_le_of_below (h : w.Spans)
    (below : w.past ≤ row ∨ w.offset + w.extent < (row + 1) * w.rowHeight) : w.first ≤ row := by
  refine Nat.le_of_not_lt fun above => ?_
  have rows : (row + 1) * w.rowHeight ≤ w.first * w.rowHeight := Nat.mul_le_mul_right _ above
  have first := h.first_mul_le
  have ordered := w.first_le_past
  omega

/-- The window is not longer than the part of the table that ends with a row below it. -/
theorem extent_le_of_below (h : w.Spans) (inside : row < w.length)
    (below : w.past ≤ row ∨ w.offset + w.extent < (row + 1) * w.rowHeight) :
    w.extent ≤ (row + 1) * w.rowHeight := by
  rcases below with past | bottom
  · refine (w.visibleCount_le_iff_extent_le h.rowHeight _).1 ?_
    have : w.past = min (w.first + w.visibleCount) w.length := rfl
    omega
  · omega

theorem scrollToRow_below (h : w.Spans) (inside : row < w.length)
    (below : w.past ≤ row ∨ w.offset + w.extent < (row + 1) * w.rowHeight) :
    w.scrollToRow row = { w with offset := (row + 1) * w.rowHeight - w.extent } := by
  have rows : (row + 1) * w.rowHeight ≤ w.length * w.rowHeight := Nat.mul_le_mul_right _ inside
  have above := Nat.not_lt.2 (h.first_le_of_below below)
  have room := h.extent_le_of_below inside below
  rw [Nat.succ_mul] at below room rows ⊢
  unfold scrollToRow
  dsimp only
  rw [if_neg (Nat.not_le.2 inside), if_neg above, if_pos below, h.scrollTo_mod (by omega)]

/-! ## What it shows there -/

theorem visibleCount_pos (h : w.Spans) (positive : 0 < w.extent) : 0 < w.visibleCount := by
  refine Nat.pos_of_ne_zero fun none => ?_
  have := (w.visibleCount_le_iff_extent_le h.rowHeight 0).1 (Nat.le_of_eq none)
  omega

/-- How many rows are above a window that ends with the last one of `rows`. -/
theorem sub_extent_div (h : w.Spans) (positive : 0 < w.extent) {rows : Nat}
    (room : w.extent ≤ rows * w.rowHeight) :
    (rows * w.rowHeight - w.extent) / w.rowHeight = rows - w.visibleCount := by
  have count := w.visibleCount_le_iff_extent_le h.rowHeight
  have inside := (count rows).2 room
  have filled := (count w.visibleCount).1 (Nat.le_refl _)
  have needed : (w.visibleCount - 1) * w.rowHeight < w.extent := by
    have := h.visibleCount_pos positive
    refine Nat.lt_of_not_le fun less => ?_
    have := (count _).2 less
    omega
  rw [Nat.sub_mul, Nat.one_mul] at needed
  refine Nat.div_eq_of_lt_le ?_ ?_
  · rw [Nat.sub_mul]
    omega
  · rw [Nat.succ_mul, Nat.sub_mul]
    omega

theorem revealed_above (h : w.Spans) (positive : 0 < w.extent) (above : row < w.first) :
    w.Revealed (w.scrollToRow row) row := by
  have inside : w.first ≤ w.length := Nat.min_le_right _ _
  have ordered := w.first_le_past
  rw [h.scrollToRow_above above]
  have first : ({ w with offset := row * w.rowHeight } : MemoryWindow).first = row := by
    show min (row * w.rowHeight / w.rowHeight) w.length = row
    rw [Nat.mul_div_cancel _ h.rowHeight]
    omega
  constructor
  case shown =>
    rw [shown_iff, first]
    exact ⟨Nat.lt_of_lt_of_le above inside, Nat.le_refl _,
      Nat.lt_add_of_pos_right (h.visibleCount_pos positive)⟩
  case above => exact fun _ => first
  case below => omega
  case still => exact fun shown => absurd shown.1 (Nat.not_le.2 above)
  case whole =>
    intro whole
    show (row + 1) * w.rowHeight ≤ row * w.rowHeight + w.extent
    rw [Nat.succ_mul]
    omega

theorem revealed_below (h : w.Spans) (positive : 0 < w.extent) (inside : row < w.length)
    (below : w.past ≤ row ∨ w.offset + w.extent < (row + 1) * w.rowHeight) :
    w.Revealed (w.scrollToRow row) row := by
  have room := h.extent_le_of_below inside below
  have count := (w.visibleCount_le_iff_extent_le h.rowHeight (row + 1)).2 room
  have some := h.visibleCount_pos positive
  rw [h.scrollToRow_below inside below]
  have first : ({ w with offset := (row + 1) * w.rowHeight - w.extent } : MemoryWindow).first =
      row + 1 - w.visibleCount := by
    show min (((row + 1) * w.rowHeight - w.extent) / w.rowHeight) w.length = _
    rw [h.sub_extent_div positive room]
    omega
  have past : ({ w with offset := (row + 1) * w.rowHeight - w.extent } : MemoryWindow).past =
      row + 1 := by
    unfold past
    rw [first]
    show min (row + 1 - w.visibleCount + w.visibleCount) w.length = row + 1
    omega
  constructor
  case shown =>
    unfold Shown
    rw [first, past]
    omega
  case above => exact fun above => absurd (h.first_le_of_below below) (Nat.not_le.2 above)
  case below => exact fun _ => past
  case still =>
    intro shown whole
    have := shown.2
    omega
  case whole =>
    intro _
    show (row + 1) * w.rowHeight ≤ (row + 1) * w.rowHeight - w.extent + w.extent
    omega

/-- **The window moves to a row, and no further.** -/
theorem revealed (h : w.Spans) (positive : 0 < w.extent) (inside : row < w.length) :
    w.Revealed (w.scrollToRow row) row := by
  by_cases above : row < w.first
  · exact h.revealed_above positive above
  by_cases below : w.past ≤ row ∨ w.offset + w.extent < (row + 1) * w.rowHeight
  · exact h.revealed_below positive inside below
  have shown : w.Shown row := ⟨Nat.le_of_not_lt above, by omega⟩
  have whole : (row + 1) * w.rowHeight ≤ w.offset + w.extent := by omega
  rw [scrollToRow_still shown whole]
  refine ⟨shown, ?_, ?_, fun _ _ => rfl, fun _ => whole⟩ <;> omega

end Spans

/-- The same row asked for again does not move a window that shows it to its end. -/
theorem Revealed.again {w v : MemoryWindow} {row : Nat} (h : w.Revealed v row)
    (same : v.rowHeight = w.rowHeight) (room : w.rowHeight ≤ w.extent) : v.scrollToRow row = v :=
  scrollToRow_still h.shown (same ▸ h.whole room)

end Trainer51.MemoryWindow
