import Trainer51.Change
import Trainer51.HeldKeys
import Trainer51.Panel
import Trainer51.Settings
import Trainer51.Ticker

/-!
# The workbench

A machine together with the program on it, the listing, the memory table and the run in progress.

    idle  — run →            running              running  — run, pause, stop, failure →   idle
    idle  — run to target →  stepping to target   stepping — target, limit, stop, failure → idle

A run and a run to a target never follow each other directly.  Every operation that touches the
machine or the memory space takes a new reading, and what it changed is announced once.
-/

namespace Trainer51

/-! ## Errors -/

/-- Why a program was not loaded. -/
inductive LoadError where
  | empty
  | noInstructions
  | listing (e : ListingError)
  | machine (e : MachineError)
  deriving DecidableEq, Repr

inductive BenchError where
  | load (e : LoadError)
  | unknownSpace (name : String)
  | halted (e : MachineError)
  deriving DecidableEq, Repr

def LoadError.message : LoadError → String
  | empty => "program image is empty"
  | noInstructions => "program image contains no instructions"
  | listing e => e.message
  | machine e => "engine rejected the program: " ++ e.message

def BenchError.message : BenchError → String
  | load e => "load rejected: " ++ e.message
  | unknownSpace name => "unknown memory space '" ++ name ++ "'"
  | halted e => "execution halted: " ++ e.message

/-! ## State -/

/-- The run in progress, with its timer. -/
inductive RunState where
  | idle
  | running (timer : Ticker)
  /-- On the way to a target, after a number of steps. -/
  | stepping (timer : Ticker) (target : Word) (ticks : Nat)
  deriving DecidableEq, Repr

namespace RunState

def mode : RunState → RunMode
  | idle => .idle
  | running _ => .running
  | stepping .. => .steppingToTarget

def timer? : RunState → Option Ticker
  | idle => none
  | running timer | stepping timer _ _ => some timer

def target? : RunState → Option Word
  | stepping _ target _ => some target
  | _ => none

/-- The steps taken on the way to a target. -/
def ticks? : RunState → Option Nat
  | stepping _ _ ticks => some ticks
  | _ => none

/-- The run with another state of its timer. -/
def withTimer (timer : Ticker) : RunState → RunState
  | idle => idle
  | running _ => running timer
  | stepping _ target ticks => stepping timer target ticks

end RunState

structure Workbench (M : Type) where
  machine : M
  lister : Lister
  listing : Listing := {}
  cursor : Cursor := {}
  space : MemorySpace := .rom
  window : MemoryWindow
  panel : Panel := {}
  run : RunState := .idle
  keys : HeldKeys := {}
  /-- How many run timers have been started. -/
  timersIssued : Nat := 0
  /-- Milliseconds between two ticks of a run. -/
  cadence : Nat
  /-- Ticks after which a run to a target gives up. -/
  targetLimit : Option Nat

/-- What an operation leaves: the workbench, what it announced, and its result. -/
structure Outcome (M α : Type) where
  bench : Workbench M
  changes : List Change
  result : α

namespace Workbench

variable {M : Type} [Machine M]

def mode (w : Workbench M) : RunMode := w.run.mode

/-- Show the machine as it is now. -/
def reread (w : Workbench M) : Workbench M :=
  let panel := Panel.ofReading (.take w.machine w.space)
  { w with panel, window := w.window.setLength panel.memory.size }

/-- Move the mark of execution to the machine's program counter. -/
def followPc (w : Workbench M) : Workbench M :=
  { w with cursor := { w.cursor with current := Machine.pc w.machine } }

/-- A workbench without a program. -/
def new (machine : M) (lister : Lister) (s : Settings) : Workbench M :=
  ({ machine, lister
     window := .new s.effectiveRowHeight s.effectiveExtent
     keys := { mode := s.effectiveKeyRelease }
     cadence := s.effectiveCadence
     targetLimit := s.targetLimit } : Workbench M).followPc.reread

/-! ## Outcomes -/

/-- Nothing happened. -/
def unchanged {α : Type} (w : Workbench M) (result : α) : Outcome M α := ⟨w, [], result⟩

/-- One change happened. -/
def announce {α : Type} (w : Workbench M) (change : Change) (result : α) : Outcome M α :=
  ⟨w, [change], result⟩

/-! ## Loading -/

/-- The rows of an image that would be loaded. -/
def accept (w : Workbench M) (image : List Byte) : Except LoadError (List Row) :=
  if image.isEmpty then .error .empty
  else
    match w.lister image with
    | .error e => .error (.listing e)
    | .ok [] => .error .noInstructions
    | .ok rows =>
      match Machine.check w.machine image with
      | .error e => .error (.machine e)
      | .ok () => .ok rows

/-- Take the program off the workbench. -/
def clear (w : Workbench M) : Workbench M :=
  { w with
    machine := Machine.clearAll w.machine
    listing := {}
    cursor := {}
    run := .idle
    keys := w.keys.forget }

/-- Load a program.  Nothing changes unless the image has a listing and the machine accepts it; if
the machine fails to load what it accepted, no program is left. -/
def load (w : Workbench M) (image : List Byte) : Outcome M (Except BenchError Unit) :=
  match w.accept image with
  | .error e => w.unchanged (.error (.load e))
  | .ok rows =>
    let cleared := w.clear
    match Machine.load cleared.machine image with
    | (machine, .error e) =>
      { cleared with machine }.followPc.reread.announce (.loaded 0) (.error (.load (.machine e)))
    | (machine, .ok ()) =>
      let loaded :=
        { cleared with
          machine
          listing := .ofRows rows
          space := .rom
          window := cleared.window.reset }
      loaded.followPc.reread.announce (.loaded rows.length) (.ok ())

/-! ## Stepping and running -/

/-- Execute one instruction.  A failure ends the run in progress; the mark of execution stays. -/
def execute (w : Workbench M) : Outcome M (Except BenchError Unit) :=
  match Machine.step w.machine with
  | (machine, .ok ()) =>
    let w := { w with machine }.followPc.reread
    w.announce (.stepped w.cursor.current) (.ok ())
  | (machine, .error e) =>
    { w with machine, run := .idle }.reread.announce (.halted e) (.error (.halted e))

/-- Execute one instruction, unless there is no program or a run is in progress. -/
def step (w : Workbench M) : Outcome M (Except BenchError Unit) :=
  if w.listing.isEmpty ∨ w.mode ≠ .idle then w.unchanged (.ok ()) else w.execute

/-- End the run in progress. -/
def stop (w : Workbench M) : Outcome M Unit :=
  if w.mode = .idle then w.unchanged ()
  else { w with run := .idle }.announce (.modeChanged .idle) ()

/-- End a run, but not a run to a target. -/
def pause (w : Workbench M) : Outcome M Unit :=
  if w.mode = .running then w.stop else w.unchanged ()

/-- Begin a run with a timer of its own. -/
def begin (w : Workbench M) (now : Nat) (run : Ticker → RunState) : Outcome M Unit :=
  let handle := w.timersIssued + 1
  let run := run (.start handle w.cadence now)
  { w with run, timersIssued := handle }.announce (.modeChanged run.mode) ()

/-- Run, or pause if already running. -/
def toggleRun (w : Workbench M) (now : Nat) : Outcome M Unit :=
  if w.listing.isEmpty then w.unchanged ()
  else
    match w.mode with
    | .running => w.pause
    | .steppingToTarget => w.unchanged ()
    | .idle => w.begin now .running

/-- Run until execution reaches `target`. -/
def runTo (w : Workbench M) (target : Word) (now : Nat) : Outcome M Unit :=
  if w.listing.isEmpty ∨ w.mode ≠ .idle then w.unchanged ()
  else w.begin now (.stepping · target 0)

/-- Run until execution reaches the selected row, if there is one. -/
def runToSelected (w : Workbench M) (now : Nat) : Outcome M Unit :=
  match w.cursor.selected with
  | some target => w.runTo target now
  | none => w.unchanged ()

/-- Whether a run to a target has taken as many steps as it may. -/
def atLimit (w : Workbench M) (ticks : Nat) : Bool := w.targetLimit.any (· ≤ ticks)

/-- One tick of the run in progress. -/
def tick (w : Workbench M) : Outcome M (Except BenchError Unit) :=
  match w.run with
  | .idle => w.unchanged (.ok ())
  | .running _ => w.execute
  | .stepping timer target ticks =>
    if w.cursor.current = target ∨ w.atLimit ticks then
      { w with run := .idle }.announce (.modeChanged .idle) (.ok ())
    else { w with run := .stepping timer target (ticks + 1) }.execute

/-- A tick that was due has run, whatever became of it. -/
def ticked (w : Workbench M) : Outcome M (Except BenchError Bool) :=
  let o := w.tick
  ⟨o.bench, o.changes, o.result.map fun _ => true⟩

/-- When the run in progress wants to be polled next. -/
def deadline? (w : Workbench M) : Option Nat := w.run.timer?.map (·.deadline)

/-- Give the run in progress a tick if one is due; whether one was. -/
def poll (w : Workbench M) (now : Nat) : Outcome M (Except BenchError Bool) :=
  match w.run.timer? with
  | none => w.unchanged (.ok false)
  | some timer =>
    match timer.poll now with
    | (_, false) => w.unchanged (.ok false)
    | (timer, true) => { w with run := w.run.withTimer timer }.ticked

/-- Deliver a tick for the run that a timer belongs to; a tick for any other run is dropped. -/
def fire (w : Workbench M) (handle : Nat) : Outcome M (Except BenchError Bool) :=
  if w.run.timer?.map (·.handle) = some handle then w.ticked else w.unchanged (.ok false)

/-! ## Resetting and refreshing -/

/-- Clear registers and working memory; the program stays. -/
def reset (w : Workbench M) : Outcome M Unit :=
  let machine := Machine.clearWorking w.machine
  let cleared := { w with machine, run := .idle, space := .rom, window := w.window.reset }
  cleared.followPc.reread.announce .reset ()

def refresh (w : Workbench M) : Outcome M Unit :=
  { w with machine := Machine.refresh w.machine }.reread.announce .refreshed ()

/-! ## Listing and memory table -/

/-- Show another memory space from its top. -/
def selectSpace (w : Workbench M) (space : MemorySpace) : Outcome M Unit :=
  { w with space, window := w.window.reset }.reread.announce (.spaceChanged space) ()

/-- Show the memory space of a name; an unknown name changes nothing. -/
def selectSpaceNamed (w : Workbench M) (name : String) : Outcome M (Except BenchError Unit) :=
  match MemorySpace.ofName? name with
  | some space =>
    let o := w.selectSpace space
    ⟨o.bench, o.changes, .ok ()⟩
  | none => w.unchanged (.error (.unknownSpace name))

/-- Select the row that starts at an address, if one does. -/
def selectRow (w : Workbench M) (address : Word) : Outcome M Bool :=
  if (w.listing.index? address).isSome then
    { w with cursor := { w.cursor with selected := some address } }.announce
      (.rowSelected address) true
  else w.unchanged false

def scroll (w : Workbench M) (rows : Int) : Outcome M Unit :=
  { w with window := w.window.scrollRows rows }.announce .scrolled ()

/-- Bring the cell at an address into view, if it is not below the base of the space. -/
def scrollTo (w : Workbench M) (address : Word) : Outcome M Unit :=
  let base := w.space.base
  let window :=
    if base ≤ address then w.window.scrollToRow (address - base).toNat else w.window
  { w with window }.announce .scrolled ()

def resizeWindow (w : Workbench M) (extent : Nat) : Outcome M Unit :=
  if w.window.extent = extent then w.unchanged ()
  else { w with window := w.window.resize extent }.announce .scrolled ()

/-! ## Keys -/

/-- Take over held keys and the machine with its inputs driven. -/
def keyed (w : Workbench M) (keys : HeldKeys) (machine : M) : Workbench M :=
  { w with keys, machine }.reread

def pressKey (w : Workbench M) (key : Key) : Outcome M Unit :=
  match w.keys.press? w.machine key with
  | some (keys, machine) => (w.keyed keys machine).announce (.keyPressed key) ()
  | none => w.unchanged ()

def releaseKey (w : Workbench M) (key : Key) : Outcome M Unit :=
  match w.keys.release? w.machine key with
  | some (keys, machine) => (w.keyed keys machine).announce (.keyReleased key) ()
  | none => w.unchanged ()

/-- The pointer was released somewhere. -/
def releaseAllKeys (w : Workbench M) : Outcome M Unit :=
  match w.keys.releaseAll w.machine with
  | (_, _, []) => w.unchanged ()
  | (keys, machine, released) => ⟨w.keyed keys machine, released.map .keyReleased, ()⟩

end Workbench

end Trainer51
