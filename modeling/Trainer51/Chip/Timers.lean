import Trainer51.Chip.Register

/-!
# Timers

Timer/counters 0 and 1.  Each counts machine cycles or falling edges on its pin, while its run bit
is set and, if gated, its interrupt pin is high.  TMOD holds a nibble for each, timer 1 in the high
one: gate, counter or timer, and two mode bits.
-/

namespace Trainer51

/-- The two bytes that a timer counts in. -/
structure Counter where
  high : Byte := 0
  low : Byte := 0
  deriving DecidableEq, Repr

inductive CountMode where
  /-- The high byte over the low five bits of the low byte. -/
  | bits13
  | bits16
  /-- The low byte, started again from the high byte. -/
  | reload
  /-- Timer 0 becomes two counters of one byte; timer 1 stands still. -/
  | split
  deriving DecidableEq, Repr

namespace Counter

/-- Count one event; the flag tells an overflow. -/
def increment (mode : CountMode) (c : Counter) : Counter × Bool :=
  match mode with
  | .bits13 =>
    if c.low &&& 0x1F = 0x1F then (⟨c.high + 1, c.low &&& 0xE0⟩, c.high == 0xFF)
    else (⟨c.high, c.low + 1⟩, false)
  | .bits16 =>
    if c.low = 0xFF then (⟨c.high + 1, 0⟩, c.high == 0xFF) else (⟨c.high, c.low + 1⟩, false)
  | .reload => if c.low = 0xFF then (⟨c.high, c.high⟩, true) else (⟨c.high, c.low + 1⟩, false)
  | .split => (c, false)

/-- Count a number of events; the flag tells whether any of them overflowed. -/
def advance (mode : CountMode) : (events : Nat) → Counter → Counter × Bool
  | 0, c => (c, false)
  | events + 1, c =>
    let (c, first) := c.increment mode
    let (c, later) := advance mode events c
    (c, first || later)

end Counter

/-- Count events in a byte of its own. -/
def advanceByte (b : Byte) (events : Nat) : Byte × Bool :=
  (UInt8.ofNat (b.toNat + events), 255 < b.toNat + events)

/-- What the timers see of the execution of one instruction. -/
structure TimerInputs where
  cycles : Nat := 0
  /-- Falling edges on the counter pins. -/
  edges0 : Nat := 0
  edges1 : Nat := 0
  /-- Levels of the interrupt pins. -/
  int0 : Bool := true
  int1 : Bool := true
  deriving DecidableEq, Repr

structure Timers where
  tcon : Byte := 0
  tmod : Byte := 0
  counter0 : Counter := {}
  counter1 : Counter := {}
  deriving DecidableEq, Repr

namespace Timers

def read (t : Timers) : TimerRegister → Byte
  | .tcon => t.tcon
  | .tmod => t.tmod
  | .tl0 => t.counter0.low
  | .tl1 => t.counter1.low
  | .th0 => t.counter0.high
  | .th1 => t.counter1.high

def write (t : Timers) (r : TimerRegister) (v : Byte) : Timers :=
  match r with
  | .tcon => { t with tcon := v }
  | .tmod => { t with tmod := v }
  | .tl0 => { t with counter0 := { t.counter0 with low := v } }
  | .tl1 => { t with counter1 := { t.counter1 with low := v } }
  | .th0 => { t with counter0 := { t.counter0 with high := v } }
  | .th1 => { t with counter1 := { t.counter1 with high := v } }

/-- A control bit. -/
def control (t : Timers) (n : Nat) : Bool := t.tcon.bit n

def setControl (t : Timers) (n : Nat) (on : Bool) : Timers :=
  { t with tcon := t.tcon.setBit n on }

/-- Raise a flag if `on`; a flag that is up stays up. -/
def raise (t : Timers) (n : Nat) (on : Bool) : Timers := if on then t.setControl n true else t

/-- The mode in two bits of TMOD. -/
def modeOf (high low : Bool) : CountMode :=
  match high, low with
  | false, false => .bits13
  | false, true => .bits16
  | true, false => .reload
  | true, true => .split

def mode0 (t : Timers) : CountMode := modeOf (t.tmod.bit 1) (t.tmod.bit 0)

def mode1 (t : Timers) : CountMode := modeOf (t.tmod.bit 5) (t.tmod.bit 4)

/-- Edges or cycles, as TMOD says. -/
def events0 (t : Timers) (i : TimerInputs) : Nat := if t.tmod.bit 2 then i.edges0 else i.cycles

def events1 (t : Timers) (i : TimerInputs) : Nat := if t.tmod.bit 6 then i.edges1 else i.cycles

/-- Whether timer 0 counts: its run bit is set and its gate is open. -/
def running0 (t : Timers) (i : TimerInputs) : Bool :=
  t.control Tcon.tr0 && (!t.tmod.bit 3 || i.int0)

def running1 (t : Timers) (i : TimerInputs) : Bool :=
  t.control Tcon.tr1 && (!t.tmod.bit 7 || i.int1)

/-- Timer 0 counts in its own mode. -/
def tick0 (t : Timers) (i : TimerInputs) : Timers :=
  if t.running0 i then
    let (c, overflow) := t.counter0.advance t.mode0 (t.events0 i)
    { t with counter0 := c }.raise Tcon.tf0 overflow
  else t

/-- Timer 1 counts in its own mode. -/
def tick1 (t : Timers) (i : TimerInputs) : Timers :=
  if t.running1 i then
    let (c, overflow) := t.counter1.advance t.mode1 (t.events1 i)
    { t with counter1 := c }.raise Tcon.tf1 overflow
  else t

/-- Timer 0 split: the low byte keeps its controls, the high byte counts cycles under the run bit
and overflow flag of timer 1, which itself runs on without either. -/
def tickSplit (t : Timers) (i : TimerInputs) : Timers :=
  let (low, lowOverflow) :=
    if t.running0 i then advanceByte t.counter0.low (t.events0 i) else (t.counter0.low, false)
  let (high, highOverflow) :=
    if t.control Tcon.tr1 then advanceByte t.counter0.high i.cycles else (t.counter0.high, false)
  let (c1, _) := t.counter1.advance t.mode1 (t.events1 i)
  ({ t with counter0 := ⟨high, low⟩, counter1 := c1 }.raise Tcon.tf0 lowOverflow).raise
    Tcon.tf1 highOverflow

/-- Let the timers count what happened during one instruction. -/
def tick (t : Timers) (i : TimerInputs) : Timers :=
  if t.mode0 = .split then t.tickSplit i else (t.tick0 i).tick1 i

/-! ## Lemmas -/

theorem control_setControl (t : Timers) (m n : Nat) (on : Bool) :
    (t.setControl n on).control m = if m % 8 = n % 8 then on else t.control m :=
  Byte.bit_setBit t.tcon m n on

theorem setControl_control (t : Timers) (n : Nat) : t.setControl n (t.control n) = t :=
  congrArg (fun tcon => { t with tcon }) (Byte.setBit_bit t.tcon n)

theorem control_raise_of_ne (t : Timers) {m n : Nat} (h : m % 8 ≠ n % 8) (on : Bool) :
    (t.raise n on).control m = t.control m := by
  unfold raise
  split
  · rw [control_setControl, if_neg h]
  · rfl

end Timers

end Trainer51
