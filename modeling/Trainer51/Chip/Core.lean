import Trainer51.Chip.Interrupt
import Trainer51.Instruction
import Trainer51.Store

/-!
# The core and what it is wired to

The core holds the program counter, the working registers and the internal RAM.  External data
memory and the registers beside the core's own are reached over two buses, of which the core knows
only how to read and write them.
-/

namespace Trainer51

/-- External data memory as the core sees it. -/
class ExternalBus (X : Type) where
  read : X → Word → Byte
  write : X → Word → Byte → X

/-- The special function registers that the core does not hold. -/
class RegisterBus (P : Type) where
  /-- Read a register; a port gives the state of its pins. -/
  read : P → Byte → Byte
  /-- Read a register; a port gives its output latch. -/
  readLatch : P → Byte → Byte
  write : P → Byte → Byte → P

/-- Nothing is connected: reads give zero and writes vanish. -/
instance : ExternalBus Unit where
  read _ _ := 0
  write u _ _ := u

instance : RegisterBus Unit where
  read _ _ := 0
  readLatch _ _ := 0
  write u _ _ := u

structure Core where
  pc : Word := 0
  ram : Store256 Byte := Vector.replicate _ 0
  a : Byte := 0
  b : Byte := 0
  dph : Byte := 0
  dpl : Byte := 0
  psw : Byte := 0
  sp : Byte := 7
  inService : InService := {}
  /-- The next instruction runs before any interrupt is taken. -/
  hold : Bool := false
  deriving DecidableEq

namespace Core

/-! ## Registers -/

def get (c : Core) : CoreRegister → Byte
  | .a => c.a
  | .b => c.b
  | .dph => c.dph
  | .dpl => c.dpl
  | .psw => c.psw
  | .sp => c.sp

def set (c : Core) (r : CoreRegister) (v : Byte) : Core :=
  match r with
  | .a => { c with a := v }
  | .b => { c with b := v }
  | .dph => { c with dph := v }
  | .dpl => { c with dpl := v }
  | .psw => { c with psw := v }
  | .sp => { c with sp := v }

/-- The data pointer. -/
def dptr (c : Core) : Word := Word.ofBytes c.dph c.dpl

def setDptr (c : Core) (w : Word) : Core := { c with dph := w.hi, dpl := w.lo }

def flag (c : Core) (n : Nat) : Bool := c.psw.bit n

def setFlag (c : Core) (n : Nat) (on : Bool) : Core := { c with psw := c.psw.setBit n on }

def carry (c : Core) : Bool := c.flag Psw.carry

def setCarry (c : Core) (on : Bool) : Core := c.setFlag Psw.carry on

/-- Parity follows the accumulator. -/
def updateParity (c : Core) : Core := c.setFlag Psw.parity c.a.oddOnes

/-! ## Internal RAM -/

def readRam (c : Core) (a : Byte) : Byte := c.ram.read a

def writeRam (c : Core) (a v : Byte) : Core := { c with ram := c.ram.write a v }

/-- The internal RAM cell of a register of the selected bank. -/
def registerAddress (c : Core) (number : Fin 8) : Byte :=
  (c.psw &&& 0x18) + UInt8.ofNat number.val

def register (c : Core) (number : Fin 8) : Byte := c.readRam (c.registerAddress number)

/-- What `R0` or `R1` points at. -/
def pointer (c : Core) (p : Fin 2) : Byte := c.register (Fin.castLE (by decide) p)

/-! ## Stack -/

def push (c : Core) (v : Byte) : Core := { c with sp := c.sp + 1 }.writeRam (c.sp + 1) v

/-- Push a return address, low byte first. -/
def pushWord (c : Core) (w : Word) : Core := (c.push w.lo).push w.hi

def pop (c : Core) : Byte × Core := (c.readRam c.sp, { c with sp := c.sp - 1 })

def popWord (c : Core) : Word × Core :=
  let (hi, c) := c.pop
  let (lo, c) := c.pop
  (Word.ofBytes hi lo, c)

end Core

/-- A core with its external data memory and its registers. -/
structure Chip (X P : Type) where
  core : Core
  external : X
  registers : P

namespace Chip

variable {X P : Type} [ExternalBus X] [RegisterBus P]

/-! ## Direct addresses -/

def readSfr (c : Chip X P) (a : Byte) : Byte :=
  match CoreRegister.ofAddress? a with
  | some r => c.core.get r
  | none => RegisterBus.read c.registers a

/-- Writing the enable or priority register lets one more instruction run before any interrupt. -/
def writeSfr (c : Chip X P) (a v : Byte) : Chip X P :=
  match CoreRegister.ofAddress? a with
  | some r => { c with core := c.core.set r v }
  | none =>
    { c with
      core := if a = Sfr.ie ∨ a = Sfr.ip then { c.core with hold := true } else c.core
      registers := RegisterBus.write c.registers a v }

/-- Addresses below 80h are internal RAM, the others special function registers. -/
def readDirect (c : Chip X P) (a : Byte) : Byte :=
  if a < 0x80 then c.core.readRam a else c.readSfr a

/-- What an instruction reads that writes its result back: of a port the latch, not the pins. -/
def readLatch (c : Chip X P) (a : Byte) : Byte :=
  match Port.ofAddress? a with
  | some _ => RegisterBus.readLatch c.registers a
  | none => c.readDirect a

def writeDirect (c : Chip X P) (a v : Byte) : Chip X P :=
  if a < 0x80 then { c with core := c.core.writeRam a v } else c.writeSfr a v

/-! ## Bit addresses -/

/-- The byte that holds an addressable bit: RAM from 20h on, or a register at a multiple of 8. -/
def bitByte (bit : Byte) : Byte := if bit < 0x80 then (0x20 : Byte) + (bit >>> 3) else bit &&& 0xF8

def readBit (c : Chip X P) (bit : Byte) : Bool := (c.readDirect (bitByte bit)).bit bit.toNat

def readBitLatch (c : Chip X P) (bit : Byte) : Bool := (c.readLatch (bitByte bit)).bit bit.toNat

def writeBit (c : Chip X P) (bit : Byte) (on : Bool) : Chip X P :=
  c.writeDirect (bitByte bit) ((c.readLatch (bitByte bit)).setBit bit.toNat on)

/-! ## Operands -/

def read (c : Chip X P) : Operand → Byte
  | .accumulator => c.core.a
  | .immediate value => value
  | .direct address => c.readDirect address
  | .indirect pointer => c.core.readRam (c.core.pointer pointer)
  | .register number => c.core.register number

/-- Read an operand that is about to be written back. -/
def readBack (c : Chip X P) : Operand → Byte
  | .direct address => c.readLatch address
  | operand => c.read operand

/-- An immediate number cannot be written. -/
def write (c : Chip X P) (operand : Operand) (v : Byte) : Chip X P :=
  match operand with
  | .accumulator => { c with core := { c.core with a := v } }
  | .immediate _ => c
  | .direct address => c.writeDirect address v
  | .indirect pointer => { c with core := c.core.writeRam (c.core.pointer pointer) v }
  | .register number => { c with core := c.core.writeRam (c.core.registerAddress number) v }

/-- The external address that a pointer stands for. -/
def externalAddress (c : Chip X P) : ExternalPointer → Word
  | .dptr => c.core.dptr
  | .register pointer =>
    Word.ofBytes (RegisterBus.readLatch c.registers Port.p2.address) (c.core.pointer pointer)

/-- Change the core. -/
def mapCore (c : Chip X P) (f : Core → Core) : Chip X P := { c with core := f c.core }

end Chip

end Trainer51
