import Trainer51.Terminal

/-!
# What the terminal shows

The listing on the left, the hardware in the middle, memory and keypad on the right, and below them
a line with the state of the run or the last failure.  Drawing keeps the row of execution, or the
selected row while the listing has the focus, on the screen, and remembers where things are.
-/

namespace Trainer51

/-! ## Layout -/

/-- Where the panes are. -/
structure Layout where
  listing : Rect
  /-- The line between listing and hardware. -/
  leftRule : Rect
  hardware : Rect
  /-- The line between hardware and memory. -/
  rightRule : Rect
  memory : Rect
  keypad : Rect
  status : Rect
  deriving DecidableEq, Repr

namespace Layout

/-- The screen from edge to edge. -/
def screen (width height : UInt16) : Rect := ⟨0, 0, width, height⟩

/-- The panes, and below them the status line. -/
def rowExtents : List Extent := [.min 0, .length 1]

/-- The listing takes two fifths of the width, the panes on the right have a fixed size, and the
hardware takes what is left; there is a line on either side of it. -/
def columnExtents : List Extent := [.percentage 40, .length 1, .min 30, .length 1, .length 31]

/-- The memory table, and below it the keypad. -/
def sideExtents : List Extent := [.min 3, .length KeyCap.lines]

variable [Canvas]

def rows (screen : Rect) : Vector Rect 2 := Canvas.split .vertical rowExtents screen

def columns (screen : Rect) : Vector Rect 5 :=
  Canvas.split .horizontal columnExtents (rows screen)[0]

def side (screen : Rect) : Vector Rect 2 :=
  Canvas.split .vertical sideExtents (columns screen)[4]

def ofScreen (screen : Rect) : Layout where
  listing := (columns screen)[0]
  leftRule := (columns screen)[1]
  hardware := (columns screen)[2]
  rightRule := (columns screen)[3]
  memory := (side screen)[0]
  keypad := (side screen)[1]
  status := (rows screen)[1]

def ofSize (width height : UInt16) : Layout := ofScreen (screen width height)

/-- A line from the top to the bottom of an area. -/
def rule (area : Rect) : Drawing :=
  .paragraph area (.replicate area.height.toNat [⟨"│", {}⟩]) { fg := some .darkGray }

end Layout

namespace Terminal

/-! ## Listing -/

/-- Where a window of `height` rows begins that shows a row; it moves as little as possible. -/
def follow (start height : Nat) : Option Nat → Nat
  | none => start
  | some row =>
    if row < start then row
    else if start + height ≤ row then row + 1 - height
    else start

/-- The row that is kept on the screen. -/
def followed? (focus : Focus) (listing : Listing) (cursor : Cursor) : Option Nat :=
  let current := listing.position? cursor.current
  if focus = .listing then cursor.selected.bind listing.position? <|> current else current

/-- The first row of the listing on the screen, for a window of `height` rows. -/
def nextStart (t : Terminal) (listing : Listing) (cursor : Cursor) (height : Nat) : Nat :=
  follow (min t.start (listing.size - 1)) (max height 1) (followed? t.focus listing cursor)

/-- A row of the listing with its marks. -/
def rowText (row : Row) (current selected : Bool) : String :=
  (if current then ">" else " ") ++ (if selected then "◆" else " ") ++ " "
    ++ Hexadecimal.word row.address ++ ": " ++ padRight 9 row.byteText ++ " " ++ row.text

def rowStyle (current selected focused : Bool) : Style where
  fg := if current then some .yellow else none
  bg := some (if selected then .blue else if focused then .black else .reset)
  bold := current

/-- The line that shows the row at a position of the listing. -/
def rowLine (focus : Focus) (current : Option Nat) (selected : Option Word) (area : Rect)
    (position : Nat) (row : Row) : Drawing :=
  let isCurrent := current == some position
  let isSelected := selected == some row.address
  .line area (rowText row isCurrent isSelected) (rowStyle isCurrent isSelected (focus == .listing))

/-- The listing from row `t.start` on, as far as there are lines for it. -/
def listingLines [Geometry] (t : Terminal) (listing : Listing) (cursor : Cursor) (area : Rect) :
    List Drawing :=
  if listing.isEmpty then
    [.paragraph area [[⟨"No program loaded", {}⟩]] { fg := some .darkGray }]
  else
    let current := listing.position? cursor.current
    List.zipWith (fun line (row, position) =>
        rowLine t.focus current cursor.selected line position row)
      (Geometry.lines area) (listing.rows.toList.zipIdx.drop t.start)

/-! ## Hardware -/

def bold : Style := { bold := true }

def dim : Style := { dim := true }

/-- A register bit by bit, then its value. -/
def bitLine (row : BitRow) : List Span :=
  ⟨padRight 6 row.name, {}⟩
    :: row.bits.map (fun on => if on then ⟨"1 ", bold⟩ else ⟨"0 ", dim⟩)
    ++ [⟨"= " ++ Hexadecimal.byte row.value ++ "h", {}⟩]

/-- The flags of a control register. -/
def flagLine (flags : FlagValues) (register : ControlRegister) : List Span :=
  let flag : Option (Flag × Bool) → Span
    | some (f, on) => ⟨padRight 5 f.label, if on then bold else dim⟩
    | none => ⟨padRight 5 "-", { fg := some .darkGray }⟩
  ⟨padRight 6 register.name, bold⟩ :: (flags.row register).map flag

/-- A display digit; segments that show no character stand as a question mark. -/
def digitSpan (lit : Bool) (d : Digit) : Span where
  text := String.ofList [if d.isBlank then ' ' else d.glyph?.getD '?', if d.point then '.' else ' ']
  style :=
    if lit then { fg := some .lightRed, bg := some .black, bold := true }
    else { fg := some .darkGray, bg := some .black }

/-- Whether a peripheral is on. -/
def switchSpan (name : String) (on : Bool) : Span where
  text := name ++ " " ++ (if on then "on " else "off") ++ " "
  style := if on then { fg := some .lightGreen } else dim

def hardwareLines (p : Panel) : List (List Span) :=
  let texts (l : List String) : List Span := l.map fun s => ⟨s ++ " ", {}⟩
  [texts p.chipTexts, texts p.bankTexts, []]
    ++ ControlRegister.all.map (flagLine p.flags) ++ [[]]
    ++ p.ports.map bitLine ++ [[]]
    ++ p.devices.map bitLine ++ [[]]
    ++ [⟨"Display ", bold⟩ :: p.digits.map (digitSpan p.enables.display),
      [switchSpan "DISP" p.enables.display, switchSpan "BUZ" p.enables.buzzer,
        switchSpan "LED" p.enables.led]]

def hardwarePane (p : Panel) (area : Rect) : Drawing := .paragraph area (hardwareLines p) {}

/-! ## Memory -/

/-- A byte as a character, a point if it is no visible ASCII character. -/
def byteChar (b : Byte) : Char :=
  if 0x21 ≤ b ∧ b ≤ 0x7E then Char.ofNat b.toNat else '.'

def memoryText (cell : MemoryCell) : String :=
  Hexadecimal.word cell.address ++ ": " ++ Hexadecimal.byte cell.value ++ "  "
    ++ String.singleton (byteChar cell.value)

/-- The visible part of a memory table below its title. -/
def memoryPane (focus : Focus) (space : MemorySpace) (cells : List MemoryCell) (area : Rect) :
    Drawing :=
  let title : List Span := [⟨space.name ++ " memory", { bold := true, underlined := true }⟩]
  let shown := (cells.take (area.height.toNat - 1)).map fun cell => [⟨memoryText cell, {}⟩]
  .paragraph area (title :: shown) { bg := some (if focus = .memory then .black else .reset) }

/-! ## Keypad -/

def capStyle (focus : Focus) (held : Bool) : Style :=
  if held then { fg := some .black, bg := some .yellow, bold := true }
  else if focus = .keypad then { fg := some .white, bg := some .darkGray }
  else { bg := some .darkGray }

def capLine (focus : Focus) (keys : HeldKeys) (cap : KeyCap) : Drawing :=
  .line cap.area cap.text (capStyle focus (keys.isHeld cap.key))

/-- The titles of the two keyboards, as far as there are lines for them. -/
def keypadTitles [Geometry] (area : Rect) : List Drawing :=
  [("Sequential", 0), ("Matrix", 2)].filterMap fun (title, line) =>
    if line < area.height then
      some (.line (Geometry.rect area.x (area.y + line) area.width 1) title bold)
    else none

/-! ## Status -/

def modeText : RunMode → String
  | .idle => "IDLE"
  | .running => "RUNNING"
  | .steppingToTarget => "TO TARGET"

/-- The last failure; without one the state of the run and the keys. -/
def statusSpan (t : Terminal) (mode : RunMode) : Span :=
  let style (bg : Color) : Style := { fg := some .white, bg := some bg, bold := true }
  match t.status with
  | some failure => ⟨" " ++ failure ++ " ", style .red⟩
  | none =>
    { text := " " ++ padRight 9 (modeText mode) ++ " │ " ++ t.bindings.help ++ " │ Tab: Focus │ "
        ++ String.singleton t.bindings.quit ++ ": Quit "
      style := style (if mode = .idle then .blue else .green) }

def statusPane (t : Terminal) (mode : RunMode) (area : Rect) : Drawing :=
  .paragraph area [[t.statusSpan mode]] {}

/-! ## Drawing -/

variable {M : Type}

/-- Remember where things are about to be drawn. -/
def arrange [Geometry] (t : Terminal) (w : Workbench M) (layout : Layout) : Terminal :=
  { t with
    start :=
      if w.listing.isEmpty then t.start
      else t.nextStart w.listing w.cursor layout.listing.height.toNat
    listingArea := layout.listing
    memoryArea := layout.memory
    caps := KeyCap.arrange layout.keypad }

/-- What is drawn around the listing of a terminal that has been arranged. -/
def surroundings [Geometry] (t : Terminal) (w : Workbench M) (layout : Layout) : List Drawing :=
  [Layout.rule layout.leftRule, Layout.rule layout.rightRule, hardwarePane w.panel layout.hardware,
      memoryPane t.focus w.space (w.panel.memory.visible w.window) layout.memory]
    ++ keypadTitles layout.keypad ++ t.caps.map (capLine t.focus w.keys)
    ++ [t.statusPane w.mode layout.status]

/-- What is drawn of a terminal that has been arranged. -/
def drawings [Geometry] (t : Terminal) (w : Workbench M) (layout : Layout) : List Drawing :=
  t.listingLines w.listing w.cursor layout.listing ++ t.surroundings w layout

variable [Canvas]

/-- Draw the workbench. -/
def draw (t : Terminal) (w : Workbench M) (width height : UInt16) : Terminal × Picture :=
  let layout := Layout.ofSize width height
  let t := t.arrange w layout
  (t, ⟨Layout.screen width height, t.drawings w layout⟩)

/-- Draw the workbench, then fit the memory window to the lines it was drawn on. -/
def render [Machine M] (t : Terminal) (w : Workbench M) (width height : UInt16) :
    Terminal × Outcome M Picture :=
  let (t, picture) := t.draw w width height
  let o := if t.memoryLines = 0 then w.unchanged () else w.resizeWindow t.memoryLines
  (t, ⟨o.bench, o.changes, picture⟩)

end Terminal

end Trainer51
