/-!
# The screen

A screen is a grid of styled character cells.  A picture is a list of drawings: texts with the
rectangle that each is drawn into, in the order in which they are drawn.  How rectangles are
computed with, how one is cut into pieces and which cells a drawing leaves behind is the business of
the library that does it.  Here it is a parameter, and what is relied on is named.

    rectangles have edges of sixteen bits                              (Geometry, LawfulGeometry)
    pieces lie beside each other in what is cut up                                (LawfulCanvas)
    a drawing changes nothing outside of its area, and a text shows its characters there
-/

namespace Trainer51

/-! ## Cells -/

inductive Color where
  /-- The terminal's own colour. -/
  | reset
  | black | red | green | yellow | blue | white | darkGray | lightRed | lightGreen
  deriving DecidableEq, Repr

/-- What a text asks of the cells it is written to; what it leaves open stays as it was. -/
structure Style where
  fg : Option Color := none
  bg : Option Color := none
  bold : Bool := false
  dim : Bool := false
  underlined : Bool := false
  deriving DecidableEq, Repr

/-- One place of the screen. -/
structure Cell where
  /-- The character that is shown there; now and then a few that share the cell. -/
  symbol : String := " "
  fg : Color := .reset
  bg : Color := .reset
  bold : Bool := false
  dim : Bool := false
  underlined : Bool := false
  deriving DecidableEq, Repr

namespace Cell

/-- An unstyled space. -/
def blank : Cell := {}

def styled (cell : Cell) (s : Style) : Cell where
  symbol := cell.symbol
  fg := s.fg.getD cell.fg
  bg := s.bg.getD cell.bg
  bold := cell.bold || s.bold
  dim := cell.dim || s.dim
  underlined := cell.underlined || s.underlined

/-- Whether two cells differ in nothing but the symbol. -/
def sameStyle (a b : Cell) : Bool := { a with symbol := " " } == { b with symbol := " " }

end Cell

/-! ## Rectangles -/

/-- A rectangle of cells; `x` and `y` are those of its top left cell. -/
structure Rect where
  x : UInt16 := 0
  y : UInt16 := 0
  width : UInt16 := 0
  height : UInt16 := 0
  deriving DecidableEq, Repr

/-- How rectangles are made and what they are asked. -/
class Geometry where
  rect : (x y width height : UInt16) → Rect
  /-- The column after the last one. -/
  right : Rect → UInt16
  /-- The line after the last one. -/
  bottom : Rect → UInt16
  contains : Rect → (x y : UInt16) → Bool
  /-- The lines of a rectangle, each a rectangle itself. -/
  lines : Rect → List Rect

namespace Rect

/-- Column `i` of a rectangle, counted from its left edge. -/
def column (r : Rect) (i : Nat) : UInt16 := r.x + UInt16.ofNat i

/-- Line `i` of a rectangle, counted from its top. -/
def line (r : Rect) (i : Nat) : UInt16 := r.y + UInt16.ofNat i

/-- Line `i` as a rectangle of its own. -/
def lineArea (r : Rect) (i : Nat) : Rect := ⟨r.x, r.line i, r.width, 1⟩

/-- The edges of a rectangle are numbers of sixteen bits. -/
structure Bounded (r : Rect) : Prop where
  right : r.x.toNat + r.width.toNat ≤ 0xFFFF
  bottom : r.y.toNat + r.height.toNat ≤ 0xFFFF

/-- A rectangle does not reach over the edges of another. -/
structure Within (r s : Rect) : Prop where
  left : s.x.toNat ≤ r.x.toNat
  right : r.x.toNat + r.width.toNat ≤ s.x.toNat + s.width.toNat
  top : s.y.toNat ≤ r.y.toNat
  bottom : r.y.toNat + r.height.toNat ≤ s.y.toNat + s.height.toNat

/-- No cell is in both rectangles. -/
def Disjoint [Geometry] (r s : Rect) : Prop :=
  ∀ x y, ¬ (Geometry.contains r x y = true ∧ Geometry.contains s x y = true)

end Rect

/-- A rectangle is cut at the ends of the screen's numbers, and so are its edges. -/
class LawfulGeometry [Geometry] : Prop where
  rect_eq : ∀ x y width height : UInt16,
    Geometry.rect x y width height = ⟨x, y, min width (0xFFFF - x), min height (0xFFFF - y)⟩
  right_toNat : ∀ r : Rect, (Geometry.right r).toNat = min (r.x.toNat + r.width.toNat) 0xFFFF
  bottom_toNat : ∀ r : Rect, (Geometry.bottom r).toNat = min (r.y.toNat + r.height.toNat) 0xFFFF
  contains_iff : ∀ (r : Rect) (x y : UInt16), Geometry.contains r x y = true ↔
    (r.x ≤ x ∧ x < Geometry.right r) ∧ r.y ≤ y ∧ y < Geometry.bottom r
  lines_eq : ∀ r : Rect, r.Bounded →
    Geometry.lines r = (List.range r.height.toNat).map r.lineArea

/-! ## Drawings -/

/-- Text in one style. -/
structure Span where
  text : String
  style : Style := {}
  deriving DecidableEq, Repr

/-- What is drawn, and where. -/
inductive Drawing where
  /-- A text on the first line of an area, in a style for the whole line. -/
  | line (area : Rect) (text : String) (style : Style)
  /-- Lines of text from the top of an area on, in a style for the whole area. -/
  | paragraph (area : Rect) (lines : List (List Span)) (style : Style)
  deriving DecidableEq, Repr

namespace Drawing

def area : Drawing → Rect
  | line area .. => area
  | paragraph area .. => area

end Drawing

/-! ## Canvases -/

inductive Axis where
  | horizontal | vertical
  deriving DecidableEq, Repr

/-- What one of the pieces that a rectangle is cut into asks for. -/
inductive Extent where
  | length (cells : UInt16)
  | percentage (share : UInt16)
  /-- At least so many cells, and those that are left over. -/
  | min (cells : UInt16)
  deriving DecidableEq, Repr

/-- How rectangles are cut up and drawn into. -/
class Canvas extends Geometry where
  /-- The pieces of a rectangle along an axis, in their order. -/
  split : Axis → (extents : List Extent) → Rect → Vector Rect extents.length
  /-- The cell at a place of a screen on which some drawings have been drawn, one after the other. -/
  cell : (screen : Rect) → List Drawing → (x y : UInt16) → Cell

/-- The characters of which one cell of the screen is known to show one: the visible ones of ASCII
with the space, and the mark of a selected row. -/
def Plain (c : Char) : Prop := (0x20 ≤ c.toNat ∧ c.toNat ≤ 0x7E) ∨ c = '◆'

instance (c : Char) : Decidable (Plain c) :=
  inferInstanceAs (Decidable ((0x20 ≤ c.toNat ∧ c.toNat ≤ 0x7E) ∨ c = '◆'))

/-- Pieces do not overlap.  Drawing starts with blank cells, stays inside the area that is drawn
into, and writes a text over what was there, from the left edge on. -/
class LawfulCanvas [Canvas] : Prop extends LawfulGeometry where
  split_within : ∀ (axis : Axis) (extents : List Extent) (area : Rect), area.Bounded →
    ∀ (i : Nat) (h : i < extents.length), (Canvas.split axis extents area)[i].Within area
  split_disjoint : ∀ (axis : Axis) (extents : List Extent) (area : Rect), area.Bounded →
    ∀ (i j : Nat) (hi : i < extents.length) (hj : j < extents.length), i ≠ j →
      (Canvas.split axis extents area)[i].Disjoint (Canvas.split axis extents area)[j]
  cell_nil : ∀ (screen : Rect) (x y : UInt16), Canvas.cell screen [] x y = .blank
  cell_outside : ∀ (screen : Rect) (ds : List Drawing) (d : Drawing) (x y : UInt16),
    Geometry.contains d.area x y = false →
      Canvas.cell screen (ds ++ [d]) x y = Canvas.cell screen ds x y
  cell_line : ∀ (screen : Rect) (ds : List Drawing) (area : Rect) (text : String) (style : Style)
    (x y : UInt16), text ≠ "" → (∀ c ∈ text.toList, Plain c) →
      area.Within screen → Geometry.contains area x y = true → y = area.y →
        Canvas.cell screen (ds ++ [.line area text style]) x y =
          { (Canvas.cell screen ds x y).styled style with
            symbol := (text.toList[(x - area.x).toNat]?.map String.singleton).getD
              (Canvas.cell screen ds x y).symbol }

/-! ## Pictures -/

structure Picture where
  screen : Rect
  /-- What is drawn, the topmost at the end. -/
  drawings : List Drawing
  deriving DecidableEq, Repr

namespace Picture

variable [Canvas]

def cell (p : Picture) (x y : UInt16) : Cell := Canvas.cell p.screen p.drawings x y

/-- The cells line by line. -/
def rows (p : Picture) : List (List Cell) :=
  (List.range p.screen.height.toNat).map fun y =>
    (List.range p.screen.width.toNat).map fun x => p.cell (UInt16.ofNat x) (UInt16.ofNat y)

end Picture

end Trainer51
