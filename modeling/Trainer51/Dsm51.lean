import Trainer51.Chip.Execute
import Trainer51.Chip.Timers
import Trainer51.Image.Record
import Trainer51.Listing.Sweep
import Trainer51.Machine

/-!
# The DSM-51 trainer board

An 8051 with 64K of program memory and 64K of external data memory.  Two keyboard banks and the two
display registers are mapped over the external memory.  After every instruction the timers count,
the external interrupt pins are sampled and the display takes over its segments.
-/

namespace Trainer51

/-! ## External data memory -/

/-- External memory with the peripheral registers over it. -/
structure ExternalData where
  ram : Store64K Byte := Vector.replicate _ 0
  devices : DeviceBytes := {}
  deriving DecidableEq

/-- The cell of external memory that a peripheral register hides. -/
def Device.address : Device → Word
  | csds => 0xFF30
  | csdb => 0xFF38
  | cskb0 => 0xFF21
  | cskb1 => 0xFF22

def Device.ofAddress? (a : Word) : Option Device := Device.all.find? (·.address == a)

namespace ExternalData

def read (x : ExternalData) (a : Word) : Byte :=
  match Device.ofAddress? a with
  | some d => x.devices.get d
  | none => x.ram.read a

/-- A program can write the display registers; the keyboard banks are inputs. -/
def write (x : ExternalData) (a : Word) (v : Byte) : ExternalData :=
  match Device.ofAddress? a with
  | some .csds => { x with devices := { x.devices with csds := v } }
  | some .csdb => { x with devices := { x.devices with csdb := v } }
  | some _ => x
  | none => { x with ram := x.ram.write a v }

/-- All cells, as a program would read them. -/
def cells (x : ExternalData) : Store64K Byte :=
  Device.all.foldl (fun m d => m.write d.address (x.devices.get d)) x.ram

end ExternalData

instance : ExternalBus ExternalData := ⟨ExternalData.read, ExternalData.write⟩

/-! ## Ports, timers and plain registers -/

/-- The special function registers outside the core. -/
structure Peripherals where
  latches : PortBytes := .uniform 0xFF
  /-- What the outside drives onto the pins.  The line of the sequential keyboard is low until one
  of its keys is pressed, the others are pulled up. -/
  outside : PortBytes := { PortBytes.uniform 0xFF with p3 := 0xDF }
  timers : Timers := {}
  /-- The registers without a function of their own. -/
  plain : Vector Byte 128 := Vector.replicate _ 0
  deriving DecidableEq

namespace Peripherals

/-- The pins of a port: high where both the latch and the outside let them. -/
def pins (p : Peripherals) (port : Port) : Byte := p.latches.get port &&& p.outside.get port

/-- The cell of a plain register; only the low seven address bits count. -/
def plainIndex (a : Byte) : Fin 128 := Fin.ofNat 128 a.toNat

def read (p : Peripherals) (a : Byte) : Byte :=
  match Port.ofAddress? a with
  | some port => p.pins port
  | none =>
    match TimerRegister.ofAddress? a with
    | some r => p.timers.read r
    | none => p.plain[plainIndex a]

def readLatch (p : Peripherals) (a : Byte) : Byte :=
  match Port.ofAddress? a with
  | some port => p.latches.get port
  | none => p.read a

def write (p : Peripherals) (a v : Byte) : Peripherals :=
  match Port.ofAddress? a with
  | some port => { p with latches := p.latches.set port v }
  | none =>
    match TimerRegister.ofAddress? a with
    | some r => { p with timers := p.timers.write r v }
    | none => { p with plain := p.plain.set (plainIndex a) v }

/-- Reset the chip; what the outside drives stays. -/
def reset (p : Peripherals) : Peripherals := { outside := p.outside }

/-- Sample one external interrupt pin: a level-triggered request follows the pin, an edge-triggered
one is raised when the pin fell. -/
def sampleRequest (t : Timers) (pins falling : Byte) (pin request edge : Nat) : Timers :=
  if t.control edge then t.raise request (falling.bit pin)
  else t.setControl request (!pins.bit pin)

/-- Sample both external interrupt pins; `falling` has the pins that fell. -/
def sampleRequests (p : Peripherals) (falling : Byte) : Peripherals :=
  let pins := p.pins .p3
  let t := sampleRequest p.timers pins falling PinOfP3.int0 Tcon.ie0 Tcon.it0
  { p with timers := sampleRequest t pins falling PinOfP3.int1 Tcon.ie1 Tcon.it1 }

end Peripherals

instance : RegisterBus Peripherals :=
  ⟨Peripherals.read, Peripherals.readLatch, Peripherals.write⟩

/-! ## The board -/

structure Dsm51 where
  chip : Chip ExternalData Peripherals := ⟨{}, {}, {}⟩
  code : Store64K Byte := Vector.replicate _ 0
  /-- The segments that each digit shows. -/
  display : Vector Byte 6 := Vector.replicate _ 0
  /-- The format of the images it loads. -/
  format : ImageFormat := .auto
  /-- The pins of port 3 at the end of the last instruction. -/
  lastP3 : Byte := 0xDF
  /-- Machine cycles since the last reset. -/
  cycles : Nat := 0

namespace Dsm51

/-- A board as it is when switched on. -/
def new (format : ImageFormat) : Dsm51 := { format }

def core (d : Dsm51) : Core := d.chip.core

def peripherals (d : Dsm51) : Peripherals := d.chip.registers

def external (d : Dsm51) : ExternalData := d.chip.external

def setCore (d : Dsm51) (core : Core) : Dsm51 := { d with chip := { d.chip with core } }

def setPeripherals (d : Dsm51) (registers : Peripherals) : Dsm51 :=
  { d with chip := { d.chip with registers } }

/-- Write a special function register as an instruction would. -/
def writeSfr (d : Dsm51) (a v : Byte) : Dsm51 := { d with chip := d.chip.writeSfr a v }

/-- Place code bytes, wrapping at the end of program memory. -/
def writeCode (d : Dsm51) (a : Word) (bytes : List Byte) : Dsm51 :=
  { d with code := d.code.writeAll a bytes }

/-! ### One step -/

/-- Bit 6 of port 1 switches the display off. -/
def displayEnabled (d : Dsm51) : Bool := !d.peripherals.latches.p1.bit 6

/-- While the display is on, every selected digit takes over the segments. -/
def latchDisplay (d : Dsm51) : Dsm51 :=
  if d.displayEnabled then
    { d with
      display := d.display.mapIdx fun digit shown =>
        if d.external.devices.csds.bit digit then d.external.devices.csdb else shown }
  else d

/-- The pins of port 3 that fell since the last instruction. -/
def fallen (d : Dsm51) : Byte := d.lastP3 &&& ~~~d.peripherals.pins .p3

/-- What the timers see of an instruction that took `cycles`. -/
def timerInputs (d : Dsm51) (cycles : Nat) : TimerInputs where
  cycles := cycles
  edges0 := (d.fallen.bit PinOfP3.t0).toNat
  edges1 := (d.fallen.bit PinOfP3.t1).toNat
  int0 := (d.peripherals.pins .p3).bit PinOfP3.int0
  int1 := (d.peripherals.pins .p3).bit PinOfP3.int1

/-- Let the board catch up with an instruction that took `cycles`. -/
def settle (d : Dsm51) (cycles : Nat) : Dsm51 :=
  let p := d.peripherals
  let p := { p with timers := p.timers.tick (d.timerInputs cycles) }
  let next := (d.setPeripherals (p.sampleRequests d.fallen)).latchDisplay
  { next with lastP3 := d.peripherals.pins .p3, cycles := d.cycles + cycles }

/-- Execute one instruction; the machine cycles it took. -/
def step (d : Dsm51) : Dsm51 × Except IllegalOpcode Nat :=
  match d.chip.step d.code.read with
  | (chip, .ok cycles) => ({ d with chip }.settle cycles, .ok cycles)
  | (chip, .error e) => ({ d with chip }, .error e)

/-! ### Loading and resetting -/

def check (d : Dsm51) (file : List Byte) : Except ImageError Unit :=
  (Image.parse d.format file).map fun _ => ()

/-- Program memory that has been cleared and then filled with the runs of an image. -/
def programmed (image : Image) : Store64K Byte :=
  image.runs.foldl (fun code run => code.writeAll run.start run.bytes) (Vector.replicate _ 0)

/-- Replace program memory by an image. -/
def load (d : Dsm51) (file : List Byte) : Dsm51 × Except ImageError Unit :=
  match Image.parse d.format file with
  | .ok image => ({ d with code := programmed image }, .ok ())
  | .error e => (d, .error e)

/-- Clear the chip and the display; code, key banks and outside levels stay. -/
def clearWorking (d : Dsm51) : Dsm51 :=
  let registers := d.peripherals.reset
  let devices := { d.external.devices with csds := 0, csdb := 0 }
  let external := { d.external with ram := Vector.replicate _ 0, devices }
  { d with
    chip := { core := {}, external, registers }
    display := Vector.replicate _ 0
    lastP3 := registers.pins .p3
    cycles := 0 }

/-! ### Inputs -/

/-- Set or clear a bit of a key bank or a level on the pins of port 3. -/
def drive (d : Dsm51) (b : InputBit) (on : Bool) : Dsm51 :=
  let x := d.external
  match b.register with
  | .cskb0 =>
    let devices := { x.devices with cskb0 := x.devices.cskb0.setBit b.position on }
    { d with chip := { d.chip with external := { x with devices } } }
  | .cskb1 =>
    let devices := { x.devices with cskb1 := x.devices.cskb1.setBit b.position on }
    { d with chip := { d.chip with external := { x with devices } } }
  | .port3 =>
    let p := d.peripherals
    let outside := { p.outside with p3 := p.outside.p3.setBit b.position on }
    d.setPeripherals { p with outside }

/-- Take over the levels of the interrupt pins and the display registers. -/
def refresh (d : Dsm51) : Dsm51 :=
  (d.setPeripherals (d.peripherals.sampleRequests 0)).latchDisplay

/-! ### Readings -/

def readSfr (d : Dsm51) (a : Byte) : Byte := d.chip.readSfr a

def registers (d : Dsm51) : Registers where
  pc := d.core.pc
  a := d.core.a
  b := d.core.b
  sp := d.core.sp
  dptr := d.core.dptr
  psw := d.core.psw
  bank := (List.finRange 8).map d.core.register
  ie := d.readSfr Sfr.ie
  ip := d.readSfr Sfr.ip
  tcon := d.readSfr Sfr.tcon
  tmod := d.readSfr Sfr.tmod

def memory (d : Dsm51) : MemorySpace → Array Byte
  | .rom => d.code.toArray
  | .ram => d.core.ram.toArray
  | .sfr => Array.ofFn fun i : Fin 128 => d.readSfr (UInt8.ofNat (0x80 + i.val))
  | .xram => d.external.cells.toArray

def ports (d : Dsm51) : PortBytes where
  p0 := d.peripherals.pins .p0
  p1 := d.peripherals.pins .p1
  p2 := d.peripherals.pins .p2
  p3 := d.peripherals.pins .p3

end Dsm51

/-! ## The board as a machine -/

def MachineError.ofImage (e : ImageError) : MachineError := .invalidImage e.message

def MachineError.ofOpcode (e : IllegalOpcode) : MachineError := .illegalOpcode e.pc e.opcode

/-- Execute one instruction, whatever time it takes. -/
def Dsm51.stepOnce (d : Dsm51) : Dsm51 × Except MachineError Unit :=
  match d.step with
  | (d, .ok _) => (d, .ok ())
  | (d, .error e) => (d, .error (.ofOpcode e))

instance : Machine Dsm51 where
  step := Dsm51.stepOnce
  check d file := (d.check file).mapError .ofImage
  load d file := (d.load file).map id (·.mapError .ofImage)
  clearAll d := .new d.format
  clearWorking := Dsm51.clearWorking
  drive := Dsm51.drive
  refresh := Dsm51.refresh
  pc d := d.core.pc
  memory := Dsm51.memory
  registers := Dsm51.registers
  ports := Dsm51.ports
  devices d := d.external.devices
  display d := d.display.toList

/-- The listing of an image in a given format. -/
def Dsm51.lister (format : ImageFormat) : Lister := fun file =>
  match Image.parse format file with
  | .ok image => .ok image.rows
  | .error .empty => .error .empty
  | .error e => .error (.image e.message)

end Trainer51
