import Trainer51.Keys
import Trainer51.Screen
import Trainer51.Text.Padding

/-!
# Key caps

Where the keys of the trainer are on the screen: a title and a row for the sequential keyboard, a
title and four rows for the matrix.  Keys that do not fit into the area are left out.
-/

namespace Trainer51

/-- A key and where it is drawn. -/
structure KeyCap where
  key : Key
  area : Rect
  deriving DecidableEq, Repr

namespace KeyCap

/-- Columns from one key to the next, the gap between them included. -/
def pitch : UInt16 := 5

/-- Lines of the whole keypad. -/
def lines : UInt16 := 7

/-- The matrix as it is drawn, row after row. -/
def matrix : List (List MatrixKey) :=
  [[.digit 7, .digit 8, .digit 9, .esc], [.digit 4, .digit 5, .digit 6, .up],
    [.digit 1, .digit 2, .digit 3, .down], [.digit 0, .left, .right, .enter]]

/-- Every key with its column and its line. -/
def places : List (Key × Nat × Nat) :=
  (SequentialKey.all.zipIdx.map fun (key, column) => (.sequential key, column, 1))
    ++ matrix.zipIdx.flatMap fun (keys, row) =>
      keys.zipIdx.map fun (key, column) => (.matrix key, column, row + 3)

variable [Geometry]

/-- The cap of a key at a place of the keypad, if it fits into the area. -/
def fit? (area : Rect) : Key × Nat × Nat → Option KeyCap
  | (key, column, line) =>
    let cap := Geometry.rect (area.x + UInt16.ofNat column * pitch) (area.y + UInt16.ofNat line)
      (pitch - 1) 1
    if Geometry.right cap ≤ Geometry.right area ∧ Geometry.bottom cap ≤ Geometry.bottom area then
      some ⟨key, cap⟩
    else none

/-- The caps in an area. -/
def arrange (area : Rect) : List KeyCap := places.filterMap (fit? area)

/-- The key at a place of the screen. -/
def at? (caps : List KeyCap) (x y : UInt16) : Option Key :=
  (caps.find? (Geometry.contains ·.area x y)).map (·.key)

/-- What is written on the cap, in its middle. -/
def text (cap : KeyCap) : String := padAround (pitch - 1).toNat cap.key.label

end KeyCap

end Trainer51
