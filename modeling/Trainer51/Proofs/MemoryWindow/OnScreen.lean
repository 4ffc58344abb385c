import Trainer51.Proofs.MemoryWindow.Bounds

/-!
# The rows shown and the rows on screen

The first row shown comes from the offset alone and their number from the extent alone.  That is one
row too few where the top row is cut off so far that what is hidden of it makes room at the bottom
for a row more than the extent has by itself.  Otherwise the rows shown are the ones on screen.

    the rows from the first one up to the count are on screen                  (onScreen_of_lt)
    the next one is if the hidden part and the extent need it                  (onScreen_next_iff)
    no row behind that is                                                      (le_of_onScreen)
    so exactly that row is missed                                              (shown_after_new)
-/

namespace Trainer51.MemoryWindow

/-- A row that the window shows. -/
def Shown (w : MemoryWindow) (row : Nat) : Prop := w.first ≤ row ∧ row < w.past

/-- A row of which a part lies between the edges of the window. -/
def OnScreen (w : MemoryWindow) (row : Nat) : Prop :=
  row * w.rowHeight < w.offset + w.extent ∧ w.offset < (row + 1) * w.rowHeight

instance (w : MemoryWindow) (row : Nat) : Decidable (w.Shown row) :=
  inferInstanceAs (Decidable (_ ∧ _))

instance (w : MemoryWindow) (row : Nat) : Decidable (w.OnScreen row) :=
  inferInstanceAs (Decidable (_ ∧ _))

/-- How much of the top row is above the window. -/
def hidden (w : MemoryWindow) : Nat := w.offset % w.rowHeight

theorem shown_iff (w : MemoryWindow) (row : Nat) :
    w.Shown row ↔ row < w.length ∧ w.first ≤ row ∧ row < w.first + w.visibleCount := by
  unfold Shown past
  omega

namespace InBounds

variable {w : MemoryWindow}

theorem hidden_lt (h : w.InBounds) : w.hidden < w.rowHeight := Nat.mod_lt _ h.rowHeight

theorem offset_eq (h : w.InBounds) : w.offset = w.first * w.rowHeight + w.hidden := by
  rw [h.fits.first_eq]
  exact (Nat.div_add_mod' _ _).symm

/-! ## Which rows are on screen -/

theorem onScreen_iff (h : w.InBounds) (row : Nat) :
    w.OnScreen row ↔ w.first ≤ row ∧ row * w.rowHeight < w.offset + w.extent := by
  have below : w.offset < (row + 1) * w.rowHeight ↔ w.first ≤ row := by
    rw [← Nat.div_lt_iff_lt_mul h.rowHeight, h.fits.first_eq, Nat.lt_succ_iff]
  rw [OnScreen, below, and_comm]

/-- A row that is shown is on screen: less than the extent lies between its top and the top of the
first one. -/
theorem onScreen_of_lt (h : w.InBounds) {row : Nat} (first : w.first ≤ row)
    (count : row < w.first + w.visibleCount) : w.OnScreen row := by
  obtain ⟨rows, rfl⟩ := Nat.exists_eq_add_of_le first
  have within : rows * w.rowHeight < w.extent := by
    have := h.visibleCount_le_iff rows
    omega
  have offset := h.offset_eq
  rw [h.onScreen_iff, Nat.add_mul]
  omega

/-- At most one row more than are counted is on screen: the count of rows fills the extent, and what
is hidden is less than a row. -/
theorem le_of_onScreen (h : w.InBounds) {row : Nat} (on : w.OnScreen row) :
    row ≤ w.first + w.visibleCount := by
  refine Nat.le_of_not_lt fun beyond => ?_
  have rows : (w.first + w.visibleCount + 1) * w.rowHeight ≤ row * w.rowHeight :=
    Nat.mul_le_mul_right _ beyond
  rw [Nat.add_mul, Nat.add_mul, Nat.one_mul] at rows
  have filled := (h.visibleCount_le_iff w.visibleCount).mp (Nat.le_refl _)
  have offset := h.offset_eq
  have hidden := h.hidden_lt
  have top := on.1
  omega

/-- The row behind those counted is on screen where the hidden part and the extent together are more
than the rows counted. -/
theorem onScreen_next_iff (h : w.InBounds) :
    w.OnScreen (w.first + w.visibleCount) ↔
      w.visibleCount * w.rowHeight < w.hidden + w.extent := by
  have offset := h.offset_eq
  rw [h.onScreen_iff, Nat.add_mul]
  omega

/-- The hidden part and the extent are on the table, so the row behind those counted is, too. -/
theorem next_lt_length (h : w.InBounds)
    (room : w.visibleCount * w.rowHeight < w.hidden + w.extent) :
    w.first + w.visibleCount < w.length := by
  have offset := h.offset_eq
  have filled := (h.visibleCount_le_iff w.visibleCount).mp (Nat.le_refl _)
  obtain top | edge := h.top_or_edge_le
  · omega
  · refine Nat.lt_of_mul_lt_mul_right (a := w.rowHeight) ?_
    rw [Nat.add_mul]
    omega

end InBounds

/-! ## After every script -/

/-- Which of the rows on screen are shown. -/
structure ShowsScreen (w : MemoryWindow) : Prop where
  /-- What is shown is what is on screen, but for one row. -/
  shown_iff : ∀ row < w.length,
    w.Shown row ↔ w.OnScreen row ∧ row ≠ w.first + w.visibleCount
  /-- That row is on screen only if the top row is hidden far enough. -/
  missed_iff : w.OnScreen (w.first + w.visibleCount) ↔
    w.visibleCount * w.rowHeight < w.hidden + w.extent
  /-- When everything on screen is shown. -/
  all_iff : (∀ row < w.length, w.Shown row ↔ w.OnScreen row) ↔
    w.hidden + w.extent ≤ w.visibleCount * w.rowHeight

theorem InBounds.showsScreen {w : MemoryWindow} (h : w.InBounds) : w.ShowsScreen := by
  have shown : ∀ row < w.length,
      (w.Shown row ↔ w.OnScreen row ∧ row ≠ w.first + w.visibleCount) := by
    intro row inside
    rw [w.shown_iff]
    constructor
    · rintro ⟨-, first, count⟩
      exact ⟨h.onScreen_of_lt first count, by omega⟩
    · rintro ⟨on, other⟩
      have first := ((h.onScreen_iff row).mp on).1
      have count := h.le_of_onScreen on
      exact ⟨inside, first, by omega⟩
  refine ⟨shown, h.onScreen_next_iff, ?_⟩
  constructor
  · intro all
    refine Nat.le_of_not_lt fun room => ?_
    have inside := h.next_lt_length room
    have missed := (shown _ inside).mp ((all _ inside).mpr (h.onScreen_next_iff.mpr room))
    exact missed.2 rfl
  · intro filled row inside
    rw [shown row inside, and_iff_left_iff_imp]
    rintro on rfl
    have room := h.onScreen_next_iff.mp on
    omega

/-- **The rows shown are those on screen, but for one.**  Whatever the height of a row, the extents
and the lengths, and however the window has been moved: of the rows on screen, in part or as a
whole, all are shown but the one that only comes into sight because the top row is cut off. -/
theorem shown_after_new (rowHeight : Nat) (extent : UInt32) (script : List WindowOperation) :
    ((new rowHeight extent.toNat).after script).ShowsScreen :=
  ((inBounds_new rowHeight extent).after script).showsScreen

/-- Rows of height 20 in an extent of 50, moved down by 35: 15 units of the second row are hidden,
and the 5 units of the last row at the bottom are not shown. -/
theorem last_row_missed :
    let w := (new 20 (50 : UInt32).toNat).after [.setLength 100, .scrollTo 35]
    w.length * w.rowHeight < 0x100000000 ∧ 0 < w.extent ∧ 4 < w.length ∧
      w.OnScreen 4 ∧ ¬ w.Shown 4 := by
  decide

end Trainer51.MemoryWindow
