import Trainer51.Console
import Trainer51.KeyCap

/-!
# The terminal

What the screen remembers between two pictures, and what the user's keys and pointer mean.  An event
changes the terminal and asks for commands, which are then applied to the workbench in order.
-/

namespace Trainer51

/-! ## Events -/

/-- The keys of the user's own keyboard that mean something. -/
inductive KeyCode where
  | char (c : Char)
  | up | down | pageUp | pageDown | home | end | tab
  /-- Tab with shift, as some terminals report it. -/
  | backTab
  /-- A key without a meaning. -/
  | other
  deriving DecidableEq, Repr

inductive KeyAction where
  | press
  /-- The key is still down. -/
  | again
  | release
  deriving DecidableEq, Repr

structure KeyEvent where
  code : KeyCode
  control : Bool := false
  shift : Bool := false
  action : KeyAction := .press
  deriving DecidableEq, Repr

inductive PointerButton where
  | left | right | middle
  deriving DecidableEq, Repr

inductive PointerAction where
  | down (button : PointerButton)
  | up (button : PointerButton)
  | drag (button : PointerButton)
  | move
  | scrollUp
  | scrollDown
  deriving DecidableEq, Repr

inductive Event where
  | key (e : KeyEvent)
  | pointer (action : PointerAction) (x y : UInt16)
  | resize
  deriving DecidableEq, Repr

/-! ## Focus and bindings -/

/-- The pane that the arrow keys belong to. -/
inductive Focus where
  | listing | memory | keypad
  deriving DecidableEq, Repr

namespace Focus

def next : Focus → Focus
  | listing => memory
  | memory => keypad
  | keypad => listing

def previous : Focus → Focus
  | listing => keypad
  | memory => listing
  | keypad => memory

end Focus

/-- The characters that stand for commands. -/
structure Bindings where
  step : Char := 's'
  run : Char := 'r'
  pause : Char := 'p'
  stop : Char := 'x'
  target : Char := 't'
  reset : Char := 'R'
  refresh : Char := 'f'
  memory : Char := 'm'
  quit : Char := 'q'
  deriving DecidableEq, Repr

namespace Bindings

/-- The command that a character stands for while `space` is shown; the first one if it stands for
several. -/
def command? (b : Bindings) (space : MemorySpace) (c : Char) : Option Command :=
  if c = b.step then some .step
  else if c = b.run then some .run
  else if c = b.pause then some .pause
  else if c = b.stop then some .stop
  else if c = b.target then some .runToTarget
  else if c = b.reset then some .reset
  else if c = b.refresh then some .refresh
  else if c = b.memory then some (.selectSpace space.next.name)
  else none

/-- The characters with what they do. -/
def help (b : Bindings) : String :=
  let entries := [(b.step, "Step"), (b.run, "Run"), (b.pause, "Pause"), (b.target, "Run to"),
    (b.stop, "Stop"), (b.reset, "Reset"), (b.refresh, "Refresh"), (b.memory, "Memory")]
  " │ ".intercalate (entries.map fun (c, what) => String.singleton c ++ ": " ++ what)

end Bindings

/-! ## The terminal -/

structure Terminal where
  bindings : Bindings := {}
  focus : Focus := .listing
  /-- Whether the user asked to leave. -/
  quit : Bool := false
  /-- The last failure, until a command succeeds. -/
  status : Option String := none
  /-- Position of the first row of the listing on the screen. -/
  start : Nat := 0
  /-- Where the listing was drawn last. -/
  listingArea : Rect := {}
  /-- Where the memory table was drawn last. -/
  memoryArea : Rect := {}
  /-- The key caps that were drawn last. -/
  caps : List KeyCap := []
  deriving DecidableEq, Repr

namespace Terminal

variable {M : Type}

/-- Show a failure. -/
def report (t : Terminal) (failure : String) : Terminal := { t with status := some failure }

/-- How many cells of the memory table fit below its title. -/
def memoryLines (t : Terminal) : Nat := t.memoryArea.height.toNat - 1

/-- How far a page key scrolls. -/
def page (t : Terminal) : Int := Int.ofNat (max t.memoryLines 1)

/-! ## Keys -/

inductive Direction where
  | up | down
  deriving DecidableEq, Repr

/-- The position next to a row of a listing, which ends at its first and its last row. -/
def Direction.neighbour (rows : Nat) (position : Nat) : Direction → Nat
  | up => position - 1
  | down => min (position + 1) (rows - 1)

/-- The position that an arrow key selects: next to the selected row, or to the row of execution if
none is selected; the first row if that one is not in the listing. -/
def arrowPosition (listing : Listing) (cursor : Cursor) (d : Direction) : Nat :=
  match listing.position? (cursor.selected.getD cursor.current) with
  | some position => d.neighbour listing.size position
  | none => 0

/-- An arrow key moves the selection, or scrolls the memory table. -/
def arrowCommand? (t : Terminal) (w : Workbench M) (d : Direction) : Option Command :=
  match t.focus with
  | .listing =>
    w.listing.rows[arrowPosition w.listing w.cursor d]?.map fun row => .selectRow row.address
  | .memory => some (.scroll (match d with | .up => -1 | .down => 1))
  | .keypad => none

/-- What a key does.  Control and `c` always leaves. -/
def keyCommand (t : Terminal) (w : Workbench M) (e : KeyEvent) : Terminal × Option Command :=
  match e.code with
  | .char c =>
    if (c = 'c' ∧ e.control) ∨ c = t.bindings.quit then ({ t with quit := true }, none)
    else (t, t.bindings.command? w.space c)
  | .tab => ({ t with focus := if e.shift then t.focus.previous else t.focus.next }, none)
  | .backTab => ({ t with focus := t.focus.previous }, none)
  | .up => (t, t.arrowCommand? w .up)
  | .down => (t, t.arrowCommand? w .down)
  | .pageUp => (t, some (.scroll (-t.page)))
  | .pageDown => (t, some (.scroll t.page))
  | .home => (t, some (.scrollTo w.space.base))
  | .end => (t, w.panel.memory.last?.map fun cell => .scrollTo cell.address)
  | .other => (t, none)

/-! ## The pointer -/

/-- The row of the listing on a line of the screen, as the listing was drawn last. -/
def rowAt? (t : Terminal) (listing : Listing) (y : UInt16) : Option Row :=
  listing.rows[t.start + (y - t.listingArea.y).toNat]?

variable [Geometry]

/-- What a click does: it presses a key, selects a row, or moves the focus. -/
def clickCommands (t : Terminal) (w : Workbench M) (x y : UInt16) : Terminal × List Command :=
  match KeyCap.at? t.caps x y with
  | some key => ({ t with focus := .keypad }, [.pressKey key])
  | none =>
    let inListing := Geometry.contains t.listingArea x y
    match if inListing then t.rowAt? w.listing y else none with
    | some row => ({ t with focus := .listing }, [.selectRow row.address])
    | none =>
      let focus :=
        if Geometry.contains t.memoryArea x y then .memory
        else if inListing then .listing
        else t.focus
      ({ t with focus }, [])

/-- Lines that one notch of the wheel scrolls. -/
def notch : Int := 3

def pointerCommands (t : Terminal) (w : Workbench M) (x y : UInt16) :
    PointerAction → Terminal × List Command
  | .down .left => t.clickCommands w x y
  | .up .left => (t, ((KeyCap.at? t.caps x y).map .releaseKey).toList ++ [.releasePointer])
  | .scrollUp => (t, if Geometry.contains t.memoryArea x y then [.scroll (-notch)] else [])
  | .scrollDown => (t, if Geometry.contains t.memoryArea x y then [.scroll notch] else [])
  | _ => (t, [])

/-! ## Events -/

/-- The commands that an event asks for. -/
def commands (t : Terminal) (w : Workbench M) : Event → Terminal × List Command
  | .key e =>
    if e.action = .release then (t, [])
    else
      let (t, command) := t.keyCommand w e
      (t, command.toList)
  | .pointer action x y => t.pointerCommands w x y action
  | .resize => (t, [])

variable [Machine M]

/-- Apply commands in order up to one that fails.  The status shows that failure; a success clears
it. -/
def applyAll (t : Terminal) (w : Workbench M) (now : Nat) :
    List Command → Terminal × Outcome M Unit
  | [] => (t, w.unchanged ())
  | command :: commands =>
    let o := w.apply now command
    match o.result with
    | .error e => (t.report e.message, ⟨o.bench, o.changes, ()⟩)
    | .ok () =>
      let (t, rest) := applyAll { t with status := none } o.bench now commands
      (t, { rest with changes := o.changes ++ rest.changes })

/-- Take an event. -/
def handle (t : Terminal) (w : Workbench M) (now : Nat) (e : Event) : Terminal × Outcome M Unit :=
  let (t, commands) := t.commands w e
  t.applyAll w now commands

end Terminal

end Trainer51
