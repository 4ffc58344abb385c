import Trainer51.Port

/-!
# Special function registers

Addresses 80h to FFh, reached by direct addressing.  The core holds six of these registers, the
timers six more, four are port latches and the rest are plain cells.
-/

namespace Trainer51

/-- The registers that the core itself holds. -/
inductive CoreRegister where
  | a | b | dph | dpl | psw | sp
  deriving DecidableEq, Repr

namespace CoreRegister

def all : List CoreRegister := [a, b, dph, dpl, psw, sp]

def address : CoreRegister → Byte
  | a => 0xE0
  | b => 0xF0
  | dph => 0x83
  | dpl => 0x82
  | psw => 0xD0
  | sp => 0x81

def ofAddress? (addr : Byte) : Option CoreRegister := all.find? (·.address == addr)

end CoreRegister

/-- The registers of the timers. -/
inductive TimerRegister where
  | tcon | tmod | tl0 | tl1 | th0 | th1
  deriving DecidableEq, Repr

namespace TimerRegister

def all : List TimerRegister := [tcon, tmod, tl0, tl1, th0, th1]

def address : TimerRegister → Byte
  | tcon => 0x88
  | tmod => 0x89
  | tl0 => 0x8A
  | tl1 => 0x8B
  | th0 => 0x8C
  | th1 => 0x8D

def ofAddress? (addr : Byte) : Option TimerRegister := all.find? (·.address == addr)

theorem address_of_ofAddress? {addr : Byte} {r : TimerRegister}
    (h : ofAddress? addr = some r) : r.address = addr := by
  have found := List.find?_some h
  exact eq_of_beq found

end TimerRegister

/-! ## Addresses and bit positions with a meaning of their own -/

namespace Sfr

/-- Interrupt enable. -/
def ie : Byte := 0xA8

/-- Interrupt priority. -/
def ip : Byte := 0xB8

def tcon : Byte := TimerRegister.tcon.address

def tmod : Byte := TimerRegister.tmod.address

/-- Serial control. -/
def scon : Byte := 0x98

end Sfr

namespace Psw

def carry : Nat := 7

def auxiliary : Nat := 6

def overflow : Nat := 2

/-- Set when the accumulator has an odd number of ones. -/
def parity : Nat := 0

end Psw

namespace Tcon

/-- Overflow flag of timer 1. -/
def tf1 : Nat := 7

/-- Run control of timer 1. -/
def tr1 : Nat := 6

/-- Overflow flag of timer 0. -/
def tf0 : Nat := 5

/-- Run control of timer 0. -/
def tr0 : Nat := 4

/-- Request of external interrupt 1. -/
def ie1 : Nat := 3

/-- Whether external interrupt 1 is raised by an edge. -/
def it1 : Nat := 2

/-- Request of external interrupt 0. -/
def ie0 : Nat := 1

/-- Whether external interrupt 0 is raised by an edge. -/
def it0 : Nat := 0

end Tcon

namespace PinOfP3

/-- Input of external interrupt 0. -/
def int0 : Nat := 2

/-- Input of external interrupt 1. -/
def int1 : Nat := 3

/-- Counter input of timer 0. -/
def t0 : Nat := 4

/-- Counter input of timer 1; the sequential keyboard drives this pin. -/
def t1 : Nat := 5

end PinOfP3

end Trainer51
