import Trainer51.Proofs.Screen.Canvas
import Trainer51.Screen.Grid

/-!
# The grid is a lawful canvas

The canvas that the program runs on keeps the laws, so what follows from them holds of the program
as it runs.

    the lines of a rectangle                                                      (Grid.lines_eq)
    the pieces of a cut lie in it, one after the other     (Grid.within_piece, Grid.disjoint_piece)
    a text is written over what was there                                         (Grid.paint_line)
-/

namespace Trainer51

namespace Grid

open Coordinate

/-! ## Rectangles -/

theorem right_toNat (r : Rect) : (right r).toNat = min (r.x.toNat + r.width.toNat) 0xFFFF :=
  toNat_ofNat (by omega)

theorem bottom_toNat (r : Rect) : (bottom r).toNat = min (r.y.toNat + r.height.toNat) 0xFFFF :=
  toNat_ofNat (by omega)

theorem contains_iff (r : Rect) (x y : UInt16) : contains r x y = true ↔
    (r.x ≤ x ∧ x < right r) ∧ r.y ≤ y ∧ y < bottom r := by
  simp [contains, and_assoc]

theorem lines_eq (r : Rect) (bounded : r.Bounded) :
    lines r = (List.range r.height.toNat).map r.lineArea := by
  obtain ⟨right, bottom⟩ := bounded
  refine List.map_congr_left fun i hi => ?_
  rw [List.mem_range] at hi
  have line : (r.line i).toNat + 1 ≤ 0xFFFF := by
    rw [Rect.line, toNat_add (by omega)]
    omega
  unfold rect
  rw [min_length right, min_length line]
  rfl

/-! ## Pieces -/

theorem total_append (ms ns : List Nat) : total (ms ++ ns) = total ms + total ns := by
  induction ms with
  | nil => exact (Nat.zero_add _).symm
  | cons m ms ih =>
    show m + total (ms ++ ns) = m + total ms + total ns
    rw [ih, Nat.add_assoc]

theorem edge_le (cells : Nat) (sizes : List Nat) (i : Nat) : edge cells sizes i ≤ cells :=
  Nat.min_le_right _ _

theorem edge_mono (cells : Nat) (sizes : List Nat) {i j : Nat} (h : i ≤ j) :
    edge cells sizes i ≤ edge cells sizes j := by
  obtain ⟨m, rfl⟩ := Nat.exists_eq_add_of_le h
  unfold edge
  rw [List.take_add, total_append]
  omega

theorem within_piece {area : Rect} (bounded : area.Bounded) {axis : Axis} {first last : Nat}
    (order : first ≤ last) (fits : last ≤ size area axis) :
    (piece area first last axis).Within area := by
  obtain ⟨right, bottom⟩ := bounded
  cases axis with
  | horizontal =>
    replace fits : last ≤ area.width.toNat := fits
    have begins : (area.x + UInt16.ofNat first).toNat = area.x.toNat + first :=
      toNat_add (by omega)
    have cells : (UInt16.ofNat (last - first)).toNat = last - first := toNat_ofNat (by omega)
    constructor <;> simp only [piece, begins, cells] <;> omega
  | vertical =>
    replace fits : last ≤ area.height.toNat := fits
    have begins : (area.y + UInt16.ofNat first).toNat = area.y.toNat + first :=
      toNat_add (by omega)
    have cells : (UInt16.ofNat (last - first)).toNat = last - first := toNat_ofNat (by omega)
    constructor <;> simp only [piece, begins, cells] <;> omega

/-- A piece that ends where another begins has no cell with it in common. -/
theorem disjoint_piece {area : Rect} (bounded : area.Bounded) {axis : Axis}
    {first last first' last' : Nat} (order : first ≤ last) (between : last ≤ first')
    (order' : first' ≤ last') (fits : last' ≤ size area axis) (x y : UInt16) :
    ¬ (contains (piece area first last axis) x y = true ∧
      contains (piece area first' last' axis) x y = true) := by
  obtain ⟨right, bottom⟩ := bounded
  simp only [contains_iff, UInt16.le_iff_toNat_le, UInt16.lt_iff_toNat_lt, right_toNat,
    bottom_toNat]
  cases axis with
  | horizontal =>
    replace fits : last' ≤ area.width.toNat := fits
    simp only [piece]
    rw [toNat_add (by omega), toNat_add (by omega), toNat_ofNat (by omega),
      toNat_ofNat (by omega)]
    omega
  | vertical =>
    replace fits : last' ≤ area.height.toNat := fits
    simp only [piece]
    rw [toNat_add (by omega), toNat_add (by omega), toNat_ofNat (by omega),
      toNat_ofNat (by omega)]
    omega

/-! ## Drawings -/

theorem paint_outside {d : Drawing} {x y : UInt16} (h : contains d.area x y = false)
    (below : Cell) : paint x y below d = below := by
  unfold paint
  rw [h]
  rfl

theorem paint_line {area : Rect} {text : String} {x y : UInt16} (some_text : text ≠ "")
    (plain : ∀ c ∈ text.toList, Plain c) (inside : contains area x y = true) (first : y = area.y)
    (style : Style) (below : Cell) :
    paint x y below (.line area text style) =
      { below.styled style with
        symbol := (text.toList[(x - area.x).toNat]?.map String.singleton).getD below.symbol } := by
  have feed : '\n' ∉ text.toList := fun h => absurd (plain _ h) (by decide)
  have symbols := symbols_of_not_mem feed
  have shown : text.toList.map String.singleton ≠ [] := by
    simpa using some_text
  subst first
  unfold paint
  simp only [Drawing.area, inside, symbols, shown, ne_eq, not_false_eq_true, and_self, if_true,
    List.getD_eq_getElem?_getD, List.getElem?_map]

end Grid

/-! ## The laws -/

instance : LawfulCanvas where
  rect_eq _ _ _ _ := rfl
  right_toNat := Grid.right_toNat
  bottom_toNat := Grid.bottom_toNat
  contains_iff := Grid.contains_iff
  lines_eq := Grid.lines_eq
  split_within axis extents area bounded i h := by
    show (Grid.split axis extents area)[i].Within area
    unfold Grid.split
    rw [Vector.getElem_ofFn]
    exact Grid.within_piece bounded (Grid.edge_mono _ _ (Nat.le_succ _)) (Grid.edge_le _ _ _)
  split_disjoint axis extents area bounded i j hi hj ne x y := by
    show ¬ (Grid.contains (Grid.split axis extents area)[i] x y = true ∧
      Grid.contains (Grid.split axis extents area)[j] x y = true)
    unfold Grid.split
    rw [Vector.getElem_ofFn, Vector.getElem_ofFn]
    obtain before | after := Nat.lt_or_gt_of_ne ne
    · exact Grid.disjoint_piece bounded (Grid.edge_mono _ _ (Nat.le_succ _))
        (Grid.edge_mono _ _ before) (Grid.edge_mono _ _ (Nat.le_succ _)) (Grid.edge_le _ _ _) x y
    · rw [and_comm]
      exact Grid.disjoint_piece bounded (Grid.edge_mono _ _ (Nat.le_succ _))
        (Grid.edge_mono _ _ after) (Grid.edge_mono _ _ (Nat.le_succ _)) (Grid.edge_le _ _ _) x y
  cell_nil _ _ _ := rfl
  cell_outside screen ds d x y h := by
    show (ds ++ [d]).foldl (Grid.paint x y) .blank = ds.foldl (Grid.paint x y) .blank
    rw [List.foldl_append]
    exact Grid.paint_outside h _
  cell_line screen ds area text style x y some_text plain visible inside first := by
    show (ds ++ [Drawing.line area text style]).foldl (Grid.paint x y) .blank = _
    rw [List.foldl_append]
    exact Grid.paint_line some_text plain inside first style _

end Trainer51
