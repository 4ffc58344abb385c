import Trainer51.Screen

/-!
# A grid of cells

The canvas that the program runs on.  Rectangles are cut off at the ends of the screen's numbers.
Pieces get what they ask for as long as there is room, one after the other, and the last drawing at
a place is the one that shows.  Where there is too little room for all pieces other canvases may
share it out in another way.
-/

namespace Trainer51

/-! ## Rectangles -/

namespace Grid

def rect (x y width height : UInt16) : Rect :=
  ⟨x, y, min width (0xFFFF - x), min height (0xFFFF - y)⟩

def right (r : Rect) : UInt16 := UInt16.ofNat (min (r.x.toNat + r.width.toNat) 0xFFFF)

def bottom (r : Rect) : UInt16 := UInt16.ofNat (min (r.y.toNat + r.height.toNat) 0xFFFF)

def contains (r : Rect) (x y : UInt16) : Bool :=
  r.x ≤ x && x < right r && r.y ≤ y && y < bottom r

def lines (r : Rect) : List Rect :=
  (List.range r.height.toNat).map fun i => rect r.x (r.line i) r.width 1

/-! ## Pieces -/

/-- How many cells a rectangle has along an axis. -/
def size (area : Rect) : Axis → Nat
  | .horizontal => area.width.toNat
  | .vertical => area.height.toNat

/-- The cells that a piece has at least. -/
def least (size : Nat) : Extent → Nat
  | .length cells => cells.toNat
  | .percentage share => size * share.toNat / 100
  | .min cells => cells.toNat

/-- The cells that a piece asks for when there are some to spare. -/
def wanted (size spare : Nat) : Extent → Nat
  | .min cells => cells.toNat + spare
  | extent => least size extent

/-- The cells of several pieces together. -/
def total : List Nat → Nat
  | [] => 0
  | size :: sizes => size + total sizes

/-- Where piece `i` of the given sizes begins, and the one before it ends. -/
def edge (size : Nat) (sizes : List Nat) (i : Nat) : Nat := min (total (sizes.take i)) size

/-- The cells from `first` to `last` along an axis. -/
def piece (area : Rect) (first last : Nat) : Axis → Rect
  | .horizontal =>
    ⟨area.x + UInt16.ofNat first, area.y, UInt16.ofNat (last - first), area.height⟩
  | .vertical =>
    ⟨area.x, area.y + UInt16.ofNat first, area.width, UInt16.ofNat (last - first)⟩

def split (axis : Axis) (extents : List Extent) (area : Rect) : Vector Rect extents.length :=
  let cells := size area axis
  let spare := cells - total (extents.map (least cells))
  let sizes := extents.map (wanted cells spare)
  .ofFn fun i => piece area (edge cells sizes i) (edge cells sizes (i + 1)) axis

/-! ## Texts -/

/-- What a text shows, cell by cell.  Every character takes one cell, control characters included,
but a line has no room for a line feed: it is left out, or joins a carriage return in front of it.
Characters that are wider than a cell, or that combine with others, are not told apart. -/
def symbols : List Char → List String
  | [] => []
  | '\r' :: '\n' :: cs => "\r\n" :: symbols cs
  | '\n' :: cs => symbols cs
  | c :: cs => String.singleton c :: symbols cs

theorem symbols_of_not_mem {cs : List Char} (h : '\n' ∉ cs) :
    symbols cs = cs.map String.singleton := by
  fun_induction symbols cs <;> simp_all

/-- The cells of a text over a background. -/
def write (background : Cell) (span : Span) : List Cell :=
  (symbols span.text.toList).map fun symbol => { background.styled span.style with symbol }

/-- What a drawing leaves at a place of the screen where there was a cell before. -/
def paint (x y : UInt16) (below : Cell) (d : Drawing) : Cell :=
  if contains d.area x y then
    let column := (x - d.area.x).toNat
    match d with
    | .line area text style =>
      let symbols := symbols text.toList
      if y = area.y ∧ symbols ≠ [] then
        { below.styled style with symbol := symbols.getD column below.symbol }
      else below
    | .paragraph area lines style =>
      let background := below.styled style
      let spans := lines.getD (y - area.y).toNat []
      (spans.flatMap (write background)).getD column background
  else below

end Grid

/-- Drawing on blank cells. -/
instance : Canvas where
  rect := Grid.rect
  right := Grid.right
  bottom := Grid.bottom
  contains := Grid.contains
  lines := Grid.lines
  split := Grid.split
  cell _ ds x y := ds.foldl (Grid.paint x y) .blank

end Trainer51
