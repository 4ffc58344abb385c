import Trainer51.Byte

/-!
# Instructions

What the 8051 executes: operations over operands, with every jump target already resolved to the
address it leads to.  An instruction's length and its time are read off its operands, so the
listing, the processor and the loader share one account of them.
-/

namespace Trainer51

/-- Where a byte operand lives. -/
inductive Operand where
  | accumulator
  | immediate (value : Byte)
  | direct (address : Byte)
  /-- The internal RAM cell that `R0` or `R1` points at. -/
  | indirect (pointer : Fin 2)
  | register (number : Fin 8)
  deriving DecidableEq, Repr

/-- The bitwise operations. -/
inductive Logic where
  | or | and | xor
  deriving DecidableEq, Repr

/-- What can be done to the accumulator with a second byte. -/
inductive AccumulatorOp where
  | add | addWithCarry | subtractWithBorrow
  | logic (op : Logic)
  deriving DecidableEq, Repr

/-- The one-bit shifts of the accumulator. -/
inductive Rotation where
  | left | leftThroughCarry | right | rightThroughCarry
  deriving DecidableEq, Repr

/-- The tests of the short conditional jumps. -/
inductive Condition where
  | carry | noCarry | zero | notZero
  deriving DecidableEq, Repr

/-- How a jump encodes its target: an offset, an address within the 2K page, or a full address. -/
inductive Reach where
  | short | page | long
  deriving DecidableEq, Repr

/-- What points into external data memory. -/
inductive ExternalPointer where
  | dptr
  /-- `R0` or `R1` for the low byte, the latch of port 2 for the high one. -/
  | register (pointer : Fin 2)
  deriving DecidableEq, Repr

inductive Instruction where
  | nop
  | jump (reach : Reach) (target : Word)
  | call (reach : Reach) (target : Word)
  | ret
  | returnFromInterrupt
  /-- Jump to the accumulator plus the data pointer. -/
  | jumpIndexed
  | jumpWhen (condition : Condition) (target : Word)
  | jumpIfBit (set : Bool) (bit : Byte) (target : Word)
  /-- Jump if the bit is set, clearing it. -/
  | jumpClearBit (bit : Byte) (target : Word)
  | compareJump (left right : Operand) (target : Word)
  | decrementJump (operand : Operand) (target : Word)
  | accumulate (op : AccumulatorOp) (source : Operand)
  | combine (op : Logic) (address : Byte) (source : Operand)
  | increment (operand : Operand)
  | decrement (operand : Operand)
  | incrementDptr
  | multiply
  | divide
  | decimalAdjust
  | swapNibbles
  | clearAccumulator
  | complementAccumulator
  | rotate (rotation : Rotation)
  | move (target source : Operand)
  | loadDptr (value : Word)
  | readCodeAtPc
  | readCodeAtDptr
  | readExternal (pointer : ExternalPointer)
  | writeExternal (pointer : ExternalPointer)
  | push (address : Byte)
  | pop (address : Byte)
  | exchange (operand : Operand)
  /-- Exchange the low nibbles of the accumulator and an internal RAM cell. -/
  | exchangeNibble (pointer : Fin 2)
  | clearCarry
  | setCarry
  | complementCarry
  | orCarry (negated : Bool) (bit : Byte)
  | andCarry (negated : Bool) (bit : Byte)
  | moveToCarry (bit : Byte)
  | moveFromCarry (bit : Byte)
  | clearBit (bit : Byte)
  | setBit (bit : Byte)
  | complementBit (bit : Byte)
  /-- The one opcode without a meaning. -/
  | reserved
  deriving DecidableEq, Repr

/-! ## Length and time -/

/-- How many bytes of the instruction an operand takes up beside the opcode. -/
def Operand.size : Operand → Nat
  | .immediate _ | .direct _ => 1
  | .accumulator | .indirect _ | .register _ => 0

/-- How many bytes a resolved target takes up beside the opcode. -/
def Reach.size : Reach → Nat
  | .short | .page => 1
  | .long => 2

def Operand.isDirect : Operand → Bool
  | .direct _ => true
  | _ => false

namespace Instruction

/-- Size in bytes, opcode included. -/
def length : Instruction → Nat
  | jump reach _ | call reach _ => 1 + reach.size
  | jumpWhen .. => 2
  | jumpIfBit .. | jumpClearBit .. => 3
  | compareJump left right _ => 2 + left.size + right.size
  | decrementJump operand _ => 2 + operand.size
  | accumulate _ source => 1 + source.size
  | combine _ _ source => 2 + source.size
  | increment operand | decrement operand | exchange operand => 1 + operand.size
  | move target source => 1 + target.size + source.size
  | loadDptr _ => 3
  | push _ | pop _ => 2
  | orCarry .. | andCarry .. | moveToCarry _ | moveFromCarry _ => 2
  | clearBit _ | setBit _ | complementBit _ => 2
  | _ => 1

/-- Machine cycles taken.  A move is slow when it names a direct address and not the accumulator. -/
def cycles : Instruction → Nat
  | multiply | divide => 4
  | jump .. | call .. | ret | returnFromInterrupt | jumpIndexed => 2
  | jumpWhen .. | jumpIfBit .. | jumpClearBit .. | compareJump .. | decrementJump .. => 2
  | combine _ _ source => 1 + source.size
  | move target source =>
    if target = .accumulator ∨ source = .accumulator then 1
    else if target.isDirect || source.isDirect then 2
    else 1
  | incrementDptr | loadDptr _ | readCodeAtPc | readCodeAtDptr => 2
  | readExternal _ | writeExternal _ | push _ | pop _ => 2
  | orCarry .. | andCarry .. | moveFromCarry _ => 2
  | _ => 1

end Instruction

end Trainer51
