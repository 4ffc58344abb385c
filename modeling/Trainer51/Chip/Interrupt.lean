import Trainer51.Chip.Register

/-!
# Interrupts

Five sources, two priority levels.  Within a level the sources are asked in a fixed order.
-/

namespace Trainer51

/-- The sources, in the order in which they are asked. -/
inductive Interrupt where
  | external0 | timer0 | external1 | timer1 | serial
  deriving DecidableEq, Repr

inductive Level where
  | low | high
  deriving DecidableEq, Repr

/-- The levels at which a service is in progress. -/
structure InService where
  low : Bool := false
  high : Bool := false
  deriving DecidableEq, Repr

namespace InService

def get (s : InService) : Level → Bool
  | .low => s.low
  | .high => s.high

/-- Begin a service. -/
def enter (s : InService) : Level → InService
  | .low => { s with low := true }
  | .high => { s with high := true }

/-- End the service that is in progress at the higher level. -/
def leave (s : InService) : InService :=
  if s.high then { s with high := false } else { s with low := false }

/-- The levels that may begin a service, the higher first. -/
def admitted (s : InService) : List Level :=
  if s.high then [] else if s.low then [.high] else [.high, .low]

end InService

/-- The registers that decide which interrupt is taken. -/
structure InterruptRegisters where
  ie : Byte
  ip : Byte
  tcon : Byte
  scon : Byte
  deriving DecidableEq, Repr

namespace Interrupt

def all : List Interrupt := [external0, timer0, external1, timer1, serial]

/-- Where its service routine starts. -/
def vector : Interrupt → Word
  | external0 => 0x03
  | timer0 => 0x0B
  | external1 => 0x13
  | timer1 => 0x1B
  | serial => 0x23

/-- Its bit position in both the enable and the priority register. -/
def position : Interrupt → Nat
  | external0 => 0
  | timer0 => 1
  | external1 => 2
  | timer1 => 3
  | serial => 4

def enabled (i : Interrupt) (r : InterruptRegisters) : Bool := r.ie.bit i.position

def level (i : Interrupt) (r : InterruptRegisters) : Level :=
  if r.ip.bit i.position then .high else .low

def requested (i : Interrupt) (r : InterruptRegisters) : Bool :=
  match i with
  | external0 => r.tcon.bit Tcon.ie0
  | timer0 => r.tcon.bit Tcon.tf0
  | external1 => r.tcon.bit Tcon.ie1
  | timer1 => r.tcon.bit Tcon.tf1
  | serial => r.scon.bit 0 || r.scon.bit 1

/-- The bit of TCON that is cleared when the interrupt is taken.  A level-triggered external
interrupt and the serial port keep their requests. -/
def acknowledged? (i : Interrupt) (tcon : Byte) : Option Nat :=
  match i with
  | external0 => if tcon.bit Tcon.it0 then some Tcon.ie0 else none
  | timer0 => some Tcon.tf0
  | external1 => if tcon.bit Tcon.it1 then some Tcon.ie1 else none
  | timer1 => some Tcon.tf1
  | serial => none

/-- The interrupt to take and its level. -/
def pending? (r : InterruptRegisters) (s : InService) : Option (Interrupt × Level) :=
  if r.ie.bit 7 then
    s.admitted.findSome? fun level =>
      (all.find? fun i => i.enabled r && i.level r == level && i.requested r).map (·, level)
  else none

end Interrupt

end Trainer51
