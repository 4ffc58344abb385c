import Trainer51.Instruction

/-!
# From code bytes to instructions

An opcode is a row (high nibble) and a column (low nibble).  Columns 5 to F name the operand: a
direct address, an indirect cell or a register; column 1 holds the jumps and calls within a 2K page;
the other columns are filled case by case.
-/

namespace Trainer51

/-- Three bytes of code memory from an address on; an instruction may use fewer. -/
structure Fetch where
  address : Word
  opcode : Byte
  arg1 : Byte
  arg2 : Byte
  deriving DecidableEq, Repr

namespace Fetch

/-- The address that the offset `rel` reaches from the end `next` of an instruction. -/
def offset (next : Word) (rel : Byte) : Word := next + Word.signExtend rel

/-- The address within the 2K page of `next`: the opcode's high bits and the argument. -/
def inPage (next : Word) (opcode arg : Byte) : Word :=
  (next &&& (0xF800 : Word)) ||| ((opcode.toUInt16 &&& (0xE0 : Word)) <<< 3) ||| arg.toUInt16

/-- Address of the byte `size` places on. -/
def after (f : Fetch) (size : Nat) : Word := f.address + UInt16.ofNat size

/-- Both argument bytes as one address or number. -/
def long (f : Fetch) : Word := Word.ofBytes f.arg1 f.arg2

/-! ## The columns of the opcode table -/

def row (f : Fetch) : Nat := f.opcode.toNat / 16

def column (f : Fetch) : Nat := f.opcode.toNat % 16

/-- The target of a two-byte jump whose offset is its only argument. -/
def near (f : Fetch) : Word := offset (f.after 2) f.arg1

/-- The target of a three-byte jump whose offset is its last argument. -/
def far (f : Fetch) : Word := offset (f.after 3) f.arg2

/-- The operation on the accumulator that a row stands for in columns 4 to F. -/
def accumulatorOp? : (row : Nat) → Option AccumulatorOp
  | 0x2 => some .add
  | 0x3 => some .addWithCarry
  | 0x4 => some (.logic .or)
  | 0x5 => some (.logic .and)
  | 0x6 => some (.logic .xor)
  | 0x9 => some .subtractWithBorrow
  | _ => none

/-- The rows that treat all operands of columns 5 to F alike. -/
def uniform? (row : Nat) (operand : Operand) : Option Instruction :=
  match row with
  | 0x0 => some (.increment operand)
  | 0x1 => some (.decrement operand)
  | 0xC => some (.exchange operand)
  | 0xE => some (.move .accumulator operand)
  | 0xF => some (.move operand .accumulator)
  | row => (accumulatorOp? row).map (.accumulate · operand)

def column0 (f : Fetch) : Instruction :=
  match f.row with
  | 0x0 => .nop
  | 0x1 => .jumpClearBit f.arg1 f.far
  | 0x2 => .jumpIfBit true f.arg1 f.far
  | 0x3 => .jumpIfBit false f.arg1 f.far
  | 0x4 => .jumpWhen .carry f.near
  | 0x5 => .jumpWhen .noCarry f.near
  | 0x6 => .jumpWhen .zero f.near
  | 0x7 => .jumpWhen .notZero f.near
  | 0x8 => .jump .short f.near
  | 0x9 => .loadDptr f.long
  | 0xA => .orCarry true f.arg1
  | 0xB => .andCarry true f.arg1
  | 0xC => .push f.arg1
  | 0xD => .pop f.arg1
  | 0xE => .readExternal .dptr
  | _ => .writeExternal .dptr

/-- Even rows jump, odd rows call. -/
def column1 (f : Fetch) : Instruction :=
  let target := inPage (f.after 2) f.opcode f.arg1
  if f.row % 2 = 0 then .jump .page target else .call .page target

def column2 (f : Fetch) : Instruction :=
  match f.row with
  | 0x0 => .jump .long f.long
  | 0x1 => .call .long f.long
  | 0x2 => .ret
  | 0x3 => .returnFromInterrupt
  | 0x4 => .combine .or f.arg1 .accumulator
  | 0x5 => .combine .and f.arg1 .accumulator
  | 0x6 => .combine .xor f.arg1 .accumulator
  | 0x7 => .orCarry false f.arg1
  | 0x8 => .andCarry false f.arg1
  | 0x9 => .moveFromCarry f.arg1
  | 0xA => .moveToCarry f.arg1
  | 0xB => .complementBit f.arg1
  | 0xC => .clearBit f.arg1
  | 0xD => .setBit f.arg1
  | 0xE => .readExternal (.register 0)
  | _ => .writeExternal (.register 0)

def column3 (f : Fetch) : Instruction :=
  match f.row with
  | 0x0 => .rotate .right
  | 0x1 => .rotate .rightThroughCarry
  | 0x2 => .rotate .left
  | 0x3 => .rotate .leftThroughCarry
  | 0x4 => .combine .or f.arg1 (.immediate f.arg2)
  | 0x5 => .combine .and f.arg1 (.immediate f.arg2)
  | 0x6 => .combine .xor f.arg1 (.immediate f.arg2)
  | 0x7 => .jumpIndexed
  | 0x8 => .readCodeAtPc
  | 0x9 => .readCodeAtDptr
  | 0xA => .incrementDptr
  | 0xB => .complementCarry
  | 0xC => .clearCarry
  | 0xD => .setCarry
  | 0xE => .readExternal (.register 1)
  | _ => .writeExternal (.register 1)

def column4 (f : Fetch) : Instruction :=
  match f.row with
  | 0x0 => .increment .accumulator
  | 0x1 => .decrement .accumulator
  | 0x7 => .move .accumulator (.immediate f.arg1)
  | 0x8 => .divide
  | 0xA => .multiply
  | 0xB => .compareJump .accumulator (.immediate f.arg1) f.far
  | 0xC => .swapNibbles
  | 0xD => .decimalAdjust
  | 0xE => .clearAccumulator
  | 0xF => .complementAccumulator
  | row =>
    match accumulatorOp? row with
    | some op => .accumulate op (.immediate f.arg1)
    | none => .reserved

/-- Column 5: the operand is the direct address in the first argument. -/
def columnDirect (f : Fetch) : Instruction :=
  match f.row with
  | 0x7 => .move (.direct f.arg1) (.immediate f.arg2)
  -- the source comes first in the code bytes
  | 0x8 => .move (.direct f.arg2) (.direct f.arg1)
  | 0xA => .reserved
  | 0xB => .compareJump .accumulator (.direct f.arg1) f.far
  | 0xD => .decrementJump (.direct f.arg1) f.far
  | row => (uniform? row (.direct f.arg1)).getD .reserved

/-- Columns 6 and 7: the operand is the cell that `R0` or `R1` points at. -/
def columnIndirect (f : Fetch) (pointer : Fin 2) : Instruction :=
  match f.row with
  | 0x7 => .move (.indirect pointer) (.immediate f.arg1)
  | 0x8 => .move (.direct f.arg1) (.indirect pointer)
  | 0xA => .move (.indirect pointer) (.direct f.arg1)
  | 0xB => .compareJump (.indirect pointer) (.immediate f.arg1) f.far
  | 0xD => .exchangeNibble pointer
  | row => (uniform? row (.indirect pointer)).getD .reserved

/-- Columns 8 to F: the operand is a register of the selected bank. -/
def columnRegister (f : Fetch) (number : Fin 8) : Instruction :=
  match f.row with
  | 0x7 => .move (.register number) (.immediate f.arg1)
  | 0x8 => .move (.direct f.arg1) (.register number)
  | 0xA => .move (.register number) (.direct f.arg1)
  | 0xB => .compareJump (.register number) (.immediate f.arg1) f.far
  | 0xD => .decrementJump (.register number) f.near
  | row => (uniform? row (.register number)).getD .reserved

/-! ## Decoding -/

/-- The instruction that starts with the fetched opcode. -/
def decode (f : Fetch) : Instruction :=
  match f.column with
  | 0x0 => f.column0
  | 0x1 => f.column1
  | 0x2 => f.column2
  | 0x3 => f.column3
  | 0x4 => f.column4
  | 0x5 => f.columnDirect
  | 0x6 => f.columnIndirect 0
  | 0x7 => f.columnIndirect 1
  | 0x8 => f.columnRegister 0
  | 0x9 => f.columnRegister 1
  | 0xA => f.columnRegister 2
  | 0xB => f.columnRegister 3
  | 0xC => f.columnRegister 4
  | 0xD => f.columnRegister 5
  | 0xE => f.columnRegister 6
  | _ => f.columnRegister 7

/-- Size in bytes of the instruction. -/
def length (f : Fetch) : Nat := f.decode.length

/-- Address of the following instruction. -/
def next (f : Fetch) : Word := f.after f.length

/-- The address reached by the offset `rel` from the end of the instruction. -/
def relative (f : Fetch) (rel : Byte) : Word := offset f.next rel

/-- The address in the 2K page after the instruction that its opcode and argument name. -/
def absolute (f : Fetch) : Word := inPage f.next f.opcode f.arg1

end Fetch

/-- An absolute jump or call, of which there is one for each page. -/
def isAbsolute (opcode : Byte) : Bool := opcode &&& 0x1F == 0x01 || opcode &&& 0x1F == 0x11

/-- Size in bytes of an instruction that starts with `opcode`: its arguments do not matter. -/
def opcodeLength (opcode : Byte) : Nat :=
  if isAbsolute opcode then 2
  else if opcode ∈ [0x02, 0x12, 0x10, 0x20, 0x30, 0x43, 0x53, 0x63, 0x75, 0x85, 0x90, 0xD5]
      ∨ 0xB4 ≤ opcode ∧ opcode ≤ 0xBF then 3
  else if opcode ∈ [0x05, 0x15, 0x24, 0x25, 0x34, 0x35, 0x40, 0x42, 0x44, 0x45, 0x50, 0x52, 0x54,
        0x55, 0x60, 0x62, 0x64, 0x65, 0x70, 0x72, 0x74, 0x80, 0x82, 0x86, 0x87, 0x92, 0x94, 0x95,
        0xA0, 0xA2, 0xA6, 0xA7, 0xB0, 0xB2, 0xC0, 0xC2, 0xC5, 0xD0, 0xD2, 0xE5, 0xF5]
      ∨ 0x76 ≤ opcode ∧ opcode ≤ 0x7F ∨ 0x88 ≤ opcode ∧ opcode ≤ 0x8F
      ∨ 0xA8 ≤ opcode ∧ opcode ≤ 0xAF ∨ 0xD8 ≤ opcode ∧ opcode ≤ 0xDF then 2
  else 1

end Trainer51
