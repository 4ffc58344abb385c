import Trainer51.Chip.Arithmetic
import Trainer51.Chip.Core
import Trainer51.Instruction.Decode

/-!
# Execution

One step of the chip: an interrupt is taken if one is pending and may be served, then one
instruction is fetched, decoded and executed.  The step fails exactly when the opcode fetched after
a possible interrupt entry has no meaning.
-/

namespace Trainer51

/-- Execution met an opcode without a meaning. -/
structure IllegalOpcode where
  pc : Word
  opcode : Byte
  deriving DecidableEq, Repr

/-- The bytes of code memory from an address on. -/
def Fetch.ofCode (code : Word → Byte) (address : Word) : Fetch :=
  ⟨address, code address, code (address + 1), code (address + 2)⟩

def Logic.apply : Logic → Byte → Byte → Byte
  | .or => (· ||| ·)
  | .and => (· &&& ·)
  | .xor => (· ^^^ ·)

def Condition.holds (c : Core) : Condition → Bool
  | .carry => c.carry
  | .noCarry => !c.carry
  | .zero => c.a == 0
  | .notZero => c.a != 0

namespace Core

/-- Take over a result and its flags. -/
def setArithmetic (c : Core) (r : Arithmetic) : Core :=
  (({ c with a := r.value }.setCarry r.carry).setFlag Psw.overflow r.overflow).setFlag
    Psw.auxiliary r.auxiliary

/-- Take over a product or quotient, which leave no carry. -/
def setPair (c : Core) (r : Byte × Byte × Bool) : Core :=
  ({ c with a := r.1, b := r.2.1 }.setCarry false).setFlag Psw.overflow r.2.2

/-- Take over the accumulator and the carry. -/
def setWithCarry (c : Core) (r : Byte × Bool) : Core := { c with a := r.1 }.setCarry r.2

def jump (c : Core) (target : Word) : Core := { c with pc := target }

def jumpWhen (c : Core) (condition : Bool) (target : Word) : Core :=
  if condition then c.jump target else c

def accumulate (c : Core) (op : AccumulatorOp) (source : Byte) : Core :=
  match op with
  | .add => c.setArithmetic (addWithCarry c.a source false)
  | .addWithCarry => c.setArithmetic (addWithCarry c.a source c.carry)
  | .subtractWithBorrow => c.setArithmetic (subtractWithBorrow c.a source c.carry)
  | .logic op => { c with a := op.apply c.a source }

def rotate (c : Core) : Rotation → Core
  | .left => { c with a := rotateLeft c.a }
  | .leftThroughCarry => c.setWithCarry (rotateLeftThrough c.a c.carry)
  | .right => { c with a := rotateRight c.a }
  | .rightThroughCarry => c.setWithCarry (rotateRightThrough c.a c.carry)

/-- Push the address of the next instruction and go on at `target`. -/
def call (c : Core) (target : Word) : Core := (c.pushWord c.pc).jump target

def ret (c : Core) : Core :=
  let (address, c) := c.popWord
  c.jump address

/-- Return and end the service in progress; the next instruction runs before any interrupt. -/
def returnFromInterrupt (c : Core) : Core :=
  let c := c.ret
  { c with inService := c.inService.leave, hold := true }

/-- Exchange the low nibbles of the accumulator and the cell at `address`. -/
def exchangeNibble (c : Core) (address : Byte) : Core :=
  let v := c.readRam address
  { c.writeRam address ((v &&& 0xF0) ||| (c.a &&& 0x0F)) with
    a := (c.a &&& 0xF0) ||| (v &&& 0x0F) }

end Core

namespace Chip

variable {X P : Type} [ExternalBus X] [RegisterBus P]

/-- Execute an instruction; the program counter is already at the next one. -/
def execute (code : Word → Byte) (c : Chip X P) : Instruction → Chip X P
  | .nop | .reserved => c
  | .jump _ target => c.mapCore (·.jump target)
  | .call _ target => c.mapCore (·.call target)
  | .ret => c.mapCore (·.ret)
  | .returnFromInterrupt => c.mapCore (·.returnFromInterrupt)
  | .jumpIndexed => c.mapCore (·.jump (c.core.dptr + c.core.a.toUInt16))
  | .jumpWhen condition target => c.mapCore (·.jumpWhen (condition.holds c.core) target)
  | .jumpIfBit set bit target => c.mapCore (·.jumpWhen (c.readBit bit == set) target)
  | .jumpClearBit bit target =>
    if c.readBitLatch bit then (c.writeBit bit false).mapCore (·.jump target) else c
  | .compareJump left right target =>
    let l := c.read left
    let r := c.read right
    c.mapCore fun core => (core.setCarry (l < r)).jumpWhen (l != r) target
  | .decrementJump operand target =>
    let v := c.readBack operand - 1
    (c.write operand v).mapCore (·.jumpWhen (v != 0) target)
  | .accumulate op source => c.mapCore (·.accumulate op (c.read source))
  | .combine op address source =>
    c.writeDirect address (op.apply (c.readLatch address) (c.read source))
  | .increment operand => c.write operand (c.readBack operand + 1)
  | .decrement operand => c.write operand (c.readBack operand - 1)
  | .incrementDptr => c.mapCore fun core => core.setDptr (core.dptr + 1)
  | .multiply => c.mapCore fun core => core.setPair (Trainer51.multiply core.a core.b)
  | .divide => c.mapCore fun core => core.setPair (Trainer51.divide core.a core.b)
  | .decimalAdjust => c.mapCore fun core =>
    core.setWithCarry (Trainer51.decimalAdjust core.a core.carry (core.flag Psw.auxiliary))
  | .swapNibbles => c.mapCore fun core => { core with a := core.a.swapNibbles }
  | .clearAccumulator => c.write .accumulator 0
  | .complementAccumulator => c.write .accumulator (~~~c.core.a)
  | .rotate rotation => c.mapCore (·.rotate rotation)
  | .move target source => c.write target (c.read source)
  | .loadDptr value => c.mapCore (·.setDptr value)
  | .readCodeAtPc => c.write .accumulator (code (c.core.pc + c.core.a.toUInt16))
  | .readCodeAtDptr => c.write .accumulator (code (c.core.dptr + c.core.a.toUInt16))
  | .readExternal pointer =>
    c.write .accumulator (ExternalBus.read c.external (c.externalAddress pointer))
  | .writeExternal pointer =>
    { c with external := ExternalBus.write c.external (c.externalAddress pointer) c.core.a }
  | .push address => c.mapCore (·.push (c.readDirect address))
  | .pop address =>
    let (v, core) := c.core.pop
    { c with core }.writeDirect address v
  | .exchange operand => (c.write operand c.core.a).write .accumulator (c.read operand)
  | .exchangeNibble pointer => c.mapCore fun core => core.exchangeNibble (core.pointer pointer)
  | .clearCarry => c.mapCore (·.setCarry false)
  | .setCarry => c.mapCore (·.setCarry true)
  | .complementCarry => c.mapCore fun core => core.setCarry (!core.carry)
  | .orCarry negated bit => c.mapCore fun core =>
    core.setCarry (core.carry || (c.readBit bit ^^ negated))
  | .andCarry negated bit => c.mapCore fun core =>
    core.setCarry (core.carry && (c.readBit bit ^^ negated))
  | .moveToCarry bit => c.mapCore (·.setCarry (c.readBit bit))
  | .moveFromCarry bit => c.writeBit bit c.core.carry
  | .clearBit bit => c.writeBit bit false
  | .setBit bit => c.writeBit bit true
  | .complementBit bit => c.writeBit bit (!c.readBitLatch bit)

/-! ## Interrupts -/

def interruptRegisters (c : Chip X P) : InterruptRegisters where
  ie := RegisterBus.read c.registers Sfr.ie
  ip := RegisterBus.read c.registers Sfr.ip
  tcon := RegisterBus.read c.registers Sfr.tcon
  scon := RegisterBus.read c.registers Sfr.scon

/-- The interrupt that may preempt whatever is in service, with its level. -/
def pending? (c : Chip X P) : Option (Interrupt × Level) :=
  Interrupt.pending? c.interruptRegisters c.core.inService

/-- Clear the request of an interrupt that is taken. -/
def acknowledge (c : Chip X P) (i : Interrupt) : Chip X P :=
  let tcon := RegisterBus.read c.registers Sfr.tcon
  match i.acknowledged? tcon with
  | some n => { c with registers := RegisterBus.write c.registers Sfr.tcon (tcon.setBit n false) }
  | none => c

/-- Begin the service of an interrupt. -/
def enter (c : Chip X P) (i : Interrupt) (level : Level) : Chip X P :=
  (c.acknowledge i).mapCore fun core =>
    { core.call i.vector with inService := core.inService.enter level }

/-- Take a pending interrupt unless one instruction has to run first; the machine cycles spent. -/
def takeInterrupt (c : Chip X P) : Chip X P × Nat :=
  let released := c.mapCore ({ · with hold := false })
  if c.core.hold then (released, 0)
  else
    match c.pending? with
    | some (i, level) => (released.enter i level, 2)
    | none => (released, 0)

/-! ## One step -/

/-- Execute the instruction at the program counter; the machine cycles it takes. -/
def executeNext (code : Word → Byte) (c : Chip X P) : Chip X P × Except IllegalOpcode Nat :=
  let fetch := Fetch.ofCode code c.core.pc
  match fetch.decode with
  | .reserved => (c, .error ⟨c.core.pc, fetch.opcode⟩)
  | i =>
    (((c.mapCore (·.jump (fetch.after i.length))).execute code i).mapCore Core.updateParity,
      .ok i.cycles)

/-- Take a pending interrupt and execute one instruction; the machine cycles spent. -/
def step (code : Word → Byte) (c : Chip X P) : Chip X P × Except IllegalOpcode Nat :=
  let (c, entry) := c.takeInterrupt
  let (c, result) := c.executeNext code
  (c, result.map (entry + ·))

end Chip

end Trainer51
