import Trainer51.Proofs.Dsm51.RegisterSpace
import Trainer51.Proofs.MemoryWindow.Reveal
import Trainer51.Proofs.Panel.Lossless
import Trainer51.Proofs.Workbench.Consistency

/-!
# Jumping to an address

An address of the memory table is asked for and its cell is brought into view.  The cells count up
from the base address of the space, so the address tells which row it is; what the window does with
that row is all that happens.

    the shown part of a table, cell by cell                                   (getElem?_visible)
    the address of a cell leads back to its position                             (index_of_cell)
    the window moves to the row of a cell, and nothing else changes               (jump_of_cell)
    after every script the cell is shown, where it should be                    (jump_after_new)
-/

namespace Trainer51

/-! ## Cells -/

namespace MemoryTable

variable {t : MemoryTable} {w : MemoryWindow} {i : Nat} {c : MemoryCell}

theorem length_cells (t : MemoryTable) : t.cells.length = t.size := by
  simp [cells, size]

/-- The part of a table that a window shows is what the window shows of its cells. -/
theorem visible_eq (t : MemoryTable) (w : MemoryWindow) :
    t.visible w = (w.visible t.cells.toArray).toList := by
  refine List.ext_getElem? fun k => ?_
  simp only [visible, slice, cells, MemoryWindow.visible, List.getElem?_map, List.getElem?_zipIdx,
    Array.getElem?_toList, Array.getElem?_extract, List.getElem?_toArray, List.size_toArray,
    List.length_map, List.length_zipIdx, Array.length_toList]
  split
  · simp
  · rfl

theorem length_visible (t : MemoryTable) (w : MemoryWindow) :
    (t.visible w).length = min w.past t.size - w.first := by
  rw [visible_eq, Array.length_toList, MemoryWindow.visible, Array.size_extract,
    List.size_toArray, length_cells]

/-- A cell that is shown stands as far from the first one shown as in the table. -/
theorem getElem?_visible (t : MemoryTable) (shown : w.Shown i) :
    (t.visible w)[i - w.first]? = t.cells[i]? := by
  obtain ⟨first, past⟩ := shown
  rw [visible_eq, MemoryWindow.visible, Array.getElem?_toList, Array.getElem?_extract,
    Nat.add_sub_cancel' first, List.getElem?_toArray, List.size_toArray]
  split
  · rfl
  · rw [List.getElem?_eq_none]
    omega

theorem mem_visible (shown : w.Shown i) (h : t.cells[i]? = some c) : c ∈ t.visible w :=
  List.mem_of_getElem? ((t.getElem?_visible shown).trans h)

theorem head?_visible (shown : w.Shown i) (first : w.first = i) (h : t.cells[i]? = some c) :
    (t.visible w).head? = some c := by
  have here := (t.getElem?_visible shown).trans h
  rwa [first, Nat.sub_self, ← List.head?_eq_getElem?] at here

theorem getLast?_visible (shown : w.Shown i) (past : w.past = i + 1) (h : t.cells[i]? = some c) :
    (t.visible w).getLast? = some c := by
  obtain ⟨inside, -⟩ := List.getElem?_eq_some_iff.1 h
  rw [length_cells] at inside
  have length : (t.visible w).length - 1 = i - w.first := by
    rw [length_visible]
    omega
  rw [List.getLast?_eq_getElem?, length]
  exact (t.getElem?_visible shown).trans h

/-- The address of a cell leads back to its position. -/
theorem index_of_cell (fits : t.space.base.toNat + t.size ≤ 0x10000) (h : t.cells[i]? = some c) :
    t.space.base ≤ c.address ∧ (c.address - t.space.base).toNat = i := by
  obtain ⟨inside, -⟩ := List.getElem?_eq_some_iff.1 h
  rw [length_cells] at inside
  have address : c.address = t.space.base + UInt16.ofNat i := by
    have := congrArg (·[i]?) t.address_cells
    simpa [h, inside] using this
  rw [address]
  constructor
  · rw [UInt16.le_iff_toNat_le, UInt16.toNat_add, UInt16.toNat_ofNat']
    omega
  · rw [UInt16.add_comm, UInt16.add_sub_cancel, UInt16.toNat_ofNat']
    omega

end MemoryTable

/-- No space of a board goes beyond the last address. -/
theorem Dsm51.base_add_size_le (d : Dsm51) (space : MemorySpace) :
    space.base.toNat + (d.memory space).size ≤ 0x10000 := by
  cases space with
  | sfr =>
    rw [d.size_memory_sfr]
    decide
  | rom => exact Nat.le_of_eq ((Nat.zero_add _).trans d.code.size_toArray)
  | ram =>
    have size : (d.memory .ram).size = 0x100 := d.core.ram.size_toArray
    rw [size]
    decide
  | xram => exact Nat.le_of_eq ((Nat.zero_add _).trans d.external.cells.size_toArray)

namespace Workbench

/-- The workbench `v`, where `w` was asked for the address of cell number `i`, shows that cell. -/
structure JumpedTo {M : Type} [Machine M] (w v : Workbench M) (i : Nat) (c : MemoryCell) :
    Prop where
  shown : c ∈ v.panel.memory.visible v.window
  /-- A cell above the window becomes the first one shown. -/
  above : i < w.window.first → (v.panel.memory.visible v.window).head? = some c
  /-- A cell below the window becomes the last one shown. -/
  below : w.window.past ≤ i → (v.panel.memory.visible v.window).getLast? = some c
  /-- Nothing moves for a cell that is shown and ends on screen. -/
  still : w.window.Shown i →
    (i + 1) * w.window.rowHeight ≤ w.window.offset + w.window.extent → v = w
  /-- Nor when the same is asked for again, if the window has room for a row. -/
  again : w.window.rowHeight ≤ w.window.extent →
    ∀ now, (v.perform now (.command (.scrollTo c.address))).bench = v
  /-- Nothing but the offset of the window is different. -/
  rest : v = { w with window := { w.window with offset := v.window.offset } }

section

variable {M : Type} [Machine M] {w : Workbench M} {i : Nat} {c : MemoryCell}

/-- The window moves to the row of the cell, and that is all. -/
theorem jump_of_cell (current : w.Current)
    (fits : w.space.base.toNat + w.panel.memory.size ≤ 0x10000)
    (cell : w.panel.memory.cells[i]? = some c) (now : Nat) :
    (w.perform now (.command (.scrollTo c.address))).bench =
      { w with window := w.window.scrollToRow i } := by
  have space : w.panel.memory.space = w.space := by
    rw [current.panel]
    rfl
  rw [← space] at fits
  obtain ⟨base, index⟩ := MemoryTable.index_of_cell fits cell
  rw [space] at base index
  show (w.scrollTo c.address).bench = _
  unfold scrollTo
  dsimp only
  rw [if_pos base, index]
  rfl

theorem jumpedTo (current : w.Current)
    (fits : w.space.base.toNat + w.panel.memory.size ≤ 0x10000) (spans : w.window.Spans)
    (positive : 0 < w.window.extent) (cell : w.panel.memory.cells[i]? = some c) (now : Nat) :
    w.JumpedTo (w.perform now (.command (.scrollTo c.address))).bench i c := by
  have inside : i < w.window.length := by
    obtain ⟨inside, -⟩ := List.getElem?_eq_some_iff.1 cell
    rwa [MemoryTable.length_cells, ← current.window] at inside
  obtain ⟨offset, moved⟩ := w.window.scrollToRow_eq i
  have revealed := spans.revealed positive inside
  rw [jump_of_cell current fits cell]
  constructor
  case shown => exact MemoryTable.mem_visible revealed.shown cell
  case above =>
    exact fun above => MemoryTable.head?_visible revealed.shown (revealed.above above) cell
  case below =>
    exact fun below => MemoryTable.getLast?_visible revealed.shown (revealed.below below) cell
  case still =>
    intro shown whole
    rw [revealed.still shown whole]
  case again =>
    intro room later
    have same : ({ w with window := w.window.scrollToRow i } : Workbench M).Current :=
      current.congr rfl rfl rfl (by rw [moved])
    have again := revealed.again (by rw [moved]) room
    exact (jump_of_cell same fits cell later).trans (by rw [again])
  case rest => rw [moved]

theorem spans_after_new (machine : M) (lister : Lister) (s : Settings) (script : Script) :
    let w := (new machine lister s).after script
    w.window.length * w.window.rowHeight ≤ MemoryWindow.offsetLimit → w.window.Spans := by
  intro w room
  have fits : w.window.Fits :=
    after_of_move (p := fun v => v.window.Fits) (fun _ _ move => move.fits) _
      (MemoryWindow.fits_setLength _ _) script
  have rowHeight : w.window.rowHeight = max s.effectiveRowHeight 1 :=
    (sameSettings_after (new machine lister s) script).rowHeight
  exact ⟨by omega, fits, room⟩

end

/-! ## After every script -/

/-- **A jump shows the cell that was asked for.**  Whatever has happened to a board before, however
its window is placed and whichever space it is on, as long as the window has an extent and the table
ends at a position of 32 bits: after the address of a cell is asked for, the cell is shown, as the
first or the last one if it was above or below the window.  A cell that was shown down to its end
leaves everything as it is, and nothing but the offset of the window ever changes. -/
theorem jump_after_new (d : Dsm51) (lister : Lister) (s : Settings) (script : Script) (now : Nat)
    (i : Nat) (c : MemoryCell) :
    let w := (new d lister s).after script
    0 < w.window.extent → w.window.rowHeight * w.window.length < 0x100000000 →
      w.panel.memory.cells[i]? = some c →
        w.JumpedTo (w.perform now (.command (.scrollTo c.address))).bench i c := by
  intro w positive room cell
  have current : w.Current := current_after_new d lister s script
  have fits : w.space.base.toNat + w.panel.memory.size ≤ 0x10000 := by
    rw [current.panel]
    exact w.machine.base_add_size_le w.space
  have spans : w.window.Spans := by
    rw [Nat.mul_comm] at room
    exact spans_after_new d lister s script (Nat.le_of_lt_succ room)
  exact jumpedTo current fits spans positive cell now

/-- The accumulator is brought into view from the first 16 of the special function registers. -/
theorem jump_after_new_acc :
    let w := (new (Dsm51.new .binary) (Dsm51.lister .binary) {}).after [(0, .selectSpace .sfr)]
    let v := (w.perform 0 (.command (.scrollTo 0xE0))).bench
    0 < w.window.extent ∧ w.window.rowHeight * w.window.length < 0x100000000 ∧
      w.panel.memory.cells[0x60]? = some ⟨0xE0, 0x00⟩ ∧ w.window.past ≤ 0x60 ∧
      (v.panel.memory.visible v.window).getLast? = some ⟨0xE0, 0x00⟩ := by
  intro w v
  have positive : 0 < w.window.extent := by decide +kernel
  have room : w.window.rowHeight * w.window.length < 0x100000000 := by decide +kernel
  have cell : w.panel.memory.cells[0x60]? = some ⟨0xE0, 0x00⟩ := by decide +kernel
  have below : w.window.past ≤ 0x60 := by decide +kernel
  have jumped := jump_after_new (Dsm51.new .binary) (Dsm51.lister .binary) {}
    [(0, .selectSpace .sfr)] 0 0x60 ⟨0xE0, 0x00⟩ positive room cell
  exact ⟨positive, room, cell, below, jumped.below below⟩

end Workbench

end Trainer51
