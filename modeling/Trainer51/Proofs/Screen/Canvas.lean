import Trainer51.Screen

/-!
# Rectangles and drawings on any canvas

What follows from the laws alone.  The cell at a place of the screen depends on the drawings whose
areas have that place, so if there is only one of them the others do not matter, and if there is
none the cell is blank.

    which cells a rectangle has, in numbers                                   (Rect.contains_iff)
    a rectangle inside another has no other cells                        (Rect.Within.contains)
    drawings elsewhere do not show                      (cell_append_of_outside, cell_of_outside)
    the only drawing at a place shows                                             (cell_of_only)
-/

namespace Trainer51

/-! ## Coordinates -/

namespace Coordinate

theorem toNat_ofNat {n : Nat} (h : n ≤ 0xFFFF) : (UInt16.ofNat n).toNat = n := by
  rw [UInt16.toNat_ofNat']
  omega

theorem toNat_add {a : UInt16} {n : Nat} (h : a.toNat + n ≤ 0xFFFF) :
    (a + UInt16.ofNat n).toNat = a.toNat + n := by
  rw [UInt16.toNat_add, toNat_ofNat (by omega)]
  omega

/-- A length that ends before the last number is not cut off. -/
theorem min_length {a b : UInt16} (h : a.toNat + b.toNat ≤ 0xFFFF) : min b (0xFFFF - a) = b := by
  have room : b ≤ 0xFFFF - a := by
    rw [UInt16.le_iff_toNat_le, UInt16.toNat_sub_of_le]
    · show b.toNat ≤ 0xFFFF - a.toNat
      omega
    · rw [UInt16.le_iff_toNat_le]
      show a.toNat ≤ 0xFFFF
      omega
  exact if_pos room

end Coordinate

/-! ## Rectangles -/

namespace Rect

variable {r r' s s' : Rect} {x y : UInt16}

theorem Bounded.within (h : s.Bounded) (inside : r.Within s) : r.Bounded :=
  ⟨Nat.le_trans inside.right h.right, Nat.le_trans inside.bottom h.bottom⟩

theorem Within.refl (r : Rect) : r.Within r :=
  ⟨Nat.le_refl _, Nat.le_refl _, Nat.le_refl _, Nat.le_refl _⟩

theorem Within.trans {q : Rect} (h : q.Within r) (inside : r.Within s) : q.Within s where
  left := Nat.le_trans inside.left h.left
  right := Nat.le_trans h.right inside.right
  top := Nat.le_trans inside.top h.top
  bottom := Nat.le_trans h.bottom inside.bottom

theorem column_toNat (h : r.Bounded) {i : Nat} (hi : i < r.width.toNat) :
    (r.column i).toNat = r.x.toNat + i :=
  Coordinate.toNat_add (by have := h.right; omega)

theorem column_sub {i : Nat} (hi : i < r.width.toNat) : (r.column i - r.x).toNat = i := by
  have := r.width.toNat_lt
  rw [column, UInt16.add_comm, UInt16.add_sub_cancel]
  exact Coordinate.toNat_ofNat (by omega)

theorem line_toNat (h : r.Bounded) {i : Nat} (hi : i < r.height.toNat) :
    (r.line i).toNat = r.y.toNat + i :=
  Coordinate.toNat_add (by have := h.bottom; omega)

theorem within_lineArea (h : r.Bounded) {i : Nat} (hi : i < r.height.toNat) :
    (r.lineArea i).Within r := by
  have top := line_toNat h hi
  constructor
  case left => exact Nat.le_refl _
  case right => exact Nat.le_refl _
  case top =>
    show r.y.toNat ≤ (r.line i).toNat
    omega
  case bottom =>
    show (r.line i).toNat + 1 ≤ r.y.toNat + r.height.toNat
    omega

variable [Geometry] [LawfulGeometry]

theorem contains_iff (r : Rect) (x y : UInt16) : Geometry.contains r x y = true ↔
    (r.x.toNat ≤ x.toNat ∧ x.toNat < min (r.x.toNat + r.width.toNat) 0xFFFF) ∧
      r.y.toNat ≤ y.toNat ∧ y.toNat < min (r.y.toNat + r.height.toNat) 0xFFFF := by
  rw [LawfulGeometry.contains_iff, UInt16.le_iff_toNat_le, UInt16.lt_iff_toNat_lt,
    UInt16.le_iff_toNat_le, UInt16.lt_iff_toNat_lt, LawfulGeometry.right_toNat,
    LawfulGeometry.bottom_toNat]

theorem Within.contains (h : r.Within s) (hr : Geometry.contains r x y = true) :
    Geometry.contains s x y = true := by
  obtain ⟨left, right, top, bottom⟩ := h
  rw [contains_iff] at hr ⊢
  omega

theorem contains_place (h : r.Bounded) {column i : Nat} (hcolumn : column < r.width.toNat)
    (hi : i < r.height.toNat) :
    Geometry.contains r (r.column column) (r.line i) = true := by
  obtain ⟨right, bottom⟩ := id h
  rw [contains_iff, column_toNat h hcolumn, line_toNat h hi]
  omega

/-- The lines of a rectangle do not overlap. -/
theorem contains_lineArea_iff (h : r.Bounded) {column i j : Nat}
    (hcolumn : column < r.width.toNat) (hi : i < r.height.toNat) (hj : j < r.height.toNat) :
    Geometry.contains (r.lineArea j) (r.column column) (r.line i) = true ↔ j = i := by
  obtain ⟨right, bottom⟩ := id h
  rw [contains_iff, column_toNat h hcolumn, line_toNat h hi]
  show (r.x.toNat ≤ _ ∧ _ < min (r.x.toNat + r.width.toNat) _) ∧
    (r.line j).toNat ≤ _ ∧ _ < min ((r.line j).toNat + 1) _ ↔ _
  rw [line_toNat h hj]
  omega

omit [LawfulGeometry] in
theorem Disjoint.symm (h : r.Disjoint s) : s.Disjoint r := fun x y both =>
  h x y both.symm

theorem Disjoint.within (h : r'.Disjoint s') (hr : r.Within r') (hs : s.Within s') :
    r.Disjoint s := fun x y ⟨inr, ins⟩ => h x y ⟨hr.contains inr, hs.contains ins⟩

omit [LawfulGeometry] in
theorem Disjoint.outside (h : r.Disjoint s) (hr : Geometry.contains r x y = true) :
    Geometry.contains s x y = false := by
  rw [← Bool.not_eq_true]
  exact fun hs => h x y ⟨hr, hs⟩

end Rect

/-! ## Drawings -/

section Drawings

variable [Canvas] [LawfulCanvas] {screen : Rect} {ds es : List Drawing} {x y : UInt16}

/-- Drawings elsewhere do not show. -/
theorem cell_append_of_outside (h : ∀ d ∈ es, Geometry.contains d.area x y = false) :
    Canvas.cell screen (ds ++ es) x y = Canvas.cell screen ds x y := by
  induction es generalizing ds with
  | nil => rw [List.append_nil]
  | cons e es ih =>
    obtain ⟨outside, rest⟩ := List.forall_mem_cons.1 h
    rw [List.append_cons, ih rest, LawfulCanvas.cell_outside screen ds e x y outside]

theorem cell_of_outside (h : ∀ d ∈ ds, Geometry.contains d.area x y = false) :
    Canvas.cell screen ds x y = .blank := by
  rw [← List.nil_append ds, cell_append_of_outside h, LawfulCanvas.cell_nil]

/-- A text that is drawn over others shows its characters and leaves the rest of its line. -/
theorem cell_append_line {area : Rect} {text : String} {style : Style} (some_text : text ≠ "")
    (plain : ∀ c ∈ text.toList, Plain c) (visible : area.Within screen)
    (inside : Geometry.contains area x y = true) (first : y = area.y)
    (h : ∀ d ∈ ds, Geometry.contains d.area x y = false) :
    Canvas.cell screen (ds ++ [.line area text style]) x y =
      { Cell.blank.styled style with
        symbol := (text.toList[(x - area.x).toNat]?.map String.singleton).getD " " } := by
  rw [LawfulCanvas.cell_line screen ds area text style x y some_text plain visible inside first,
    cell_of_outside h]
  rfl

/-- The only text at a place shows there. -/
theorem cell_of_only {k : Nat} {area : Rect} {text : String} {style : Style}
    (drawn : ds[k]? = some (.line area text style)) (some_text : text ≠ "")
    (plain : ∀ c ∈ text.toList, Plain c) (visible : area.Within screen)
    (inside : Geometry.contains area x y = true) (first : y = area.y)
    (h : ∀ j d, ds[j]? = some d → j ≠ k → Geometry.contains d.area x y = false) :
    Canvas.cell screen ds x y =
      { Cell.blank.styled style with
        symbol := (text.toList[(x - area.x).toNat]?.map String.singleton).getD " " } := by
  obtain ⟨lt, at_k⟩ := List.getElem?_eq_some_iff.1 drawn
  have cut : ds = ds.take k ++ [.line area text style] ++ ds.drop (k + 1) := by
    rw [← at_k, List.append_assoc, List.singleton_append, List.getElem_cons_drop,
      List.take_append_drop]
  have before : ∀ d ∈ ds.take k, Geometry.contains d.area x y = false := by
    intro d hd
    obtain ⟨j, hj⟩ := List.mem_iff_getElem?.1 hd
    rw [List.getElem?_take] at hj
    split at hj
    · exact h j d hj (by omega)
    · cases hj
  have after : ∀ d ∈ ds.drop (k + 1), Geometry.contains d.area x y = false := by
    intro d hd
    obtain ⟨j, hj⟩ := List.mem_iff_getElem?.1 hd
    rw [List.getElem?_drop] at hj
    exact h _ d hj (by omega)
  rw [cut, cell_append_of_outside after]
  exact cell_append_line some_text plain visible inside first before

end Drawings

end Trainer51
