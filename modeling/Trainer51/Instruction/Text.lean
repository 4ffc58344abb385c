import Trainer51.Instruction.Decode
import Trainer51.Text.Hexadecimal

/-!
# Instructions as the listing prints them

Direct and bit addresses and jump targets print in hexadecimal with an `h` suffix, immediate numbers
in decimal with a `#` in front.  The opcode without a meaning prints as a data byte.
-/

namespace Trainer51

/-- An address or a data byte. -/
def hexText (n : Nat) : String := Hexadecimal.plain n ++ "h"

/-- A byte of the listing that is not part of an instruction. -/
def dataText (b : Byte) : String := "DB " ++ hexText b.toNat

def addressText (b : Byte) : String := hexText b.toNat

def targetText (w : Word) : String := hexText w.toNat

def Operand.text : Operand → String
  | .accumulator => "A"
  | .immediate value => "#" ++ toString value.toNat
  | .direct address => addressText address
  | .indirect pointer => "@R" ++ toString pointer.val
  | .register number => "R" ++ toString number.val

def Logic.text : Logic → String
  | .or => "ORL"
  | .and => "ANL"
  | .xor => "XRL"

def AccumulatorOp.text : AccumulatorOp → String
  | .add => "ADD"
  | .addWithCarry => "ADDC"
  | .subtractWithBorrow => "SUBB"
  | .logic op => op.text

def Rotation.text : Rotation → String
  | .left => "RL"
  | .leftThroughCarry => "RLC"
  | .right => "RR"
  | .rightThroughCarry => "RRC"

def Condition.text : Condition → String
  | .carry => "JC"
  | .noCarry => "JNC"
  | .zero => "JZ"
  | .notZero => "JNZ"

def Reach.jumpText : Reach → String
  | .short => "SJMP"
  | .page => "AJMP"
  | .long => "LJMP"

/-- Only page and long calls exist; a short one never arises from code bytes. -/
def Reach.callText : Reach → String
  | .short | .page => "ACALL"
  | .long => "LCALL"

def ExternalPointer.text : ExternalPointer → String
  | .dptr => "@DPTR"
  | .register pointer => "@R" ++ toString pointer.val

/-- A bit operand, with a slash when its complement is meant. -/
def bitText (negated : Bool) (bit : Byte) : String :=
  (if negated then "/" else "") ++ addressText bit

/-- The line that the listing shows for an instruction. -/
def Instruction.text : Instruction → String
  | nop => "NOP"
  | jump reach target => reach.jumpText ++ " " ++ targetText target
  | call reach target => reach.callText ++ " " ++ targetText target
  | ret => "RET"
  | returnFromInterrupt => "RETI"
  | jumpIndexed => "JMP @A+DPTR"
  | jumpWhen condition target => condition.text ++ " " ++ targetText target
  | jumpIfBit set bit target =>
    (if set then "JB " else "JNB ") ++ addressText bit ++ ", " ++ targetText target
  | jumpClearBit bit target => "JBC " ++ addressText bit ++ ", " ++ targetText target
  | compareJump left right target =>
    "CJNE " ++ left.text ++ ", " ++ right.text ++ ", " ++ targetText target
  | decrementJump operand target => "DJNZ " ++ operand.text ++ ", " ++ targetText target
  | accumulate op source => op.text ++ " A, " ++ source.text
  | combine op address source => op.text ++ " " ++ addressText address ++ ", " ++ source.text
  | increment operand => "INC " ++ operand.text
  | decrement operand => "DEC " ++ operand.text
  | incrementDptr => "INC DPTR"
  | multiply => "MUL AB"
  | divide => "DIV AB"
  | decimalAdjust => "DA A"
  | swapNibbles => "SWAP A"
  | clearAccumulator => "CLR A"
  | complementAccumulator => "CPL A"
  | rotate rotation => rotation.text ++ " A"
  | move target source => "MOV " ++ target.text ++ ", " ++ source.text
  | loadDptr value => "MOV DPTR, #" ++ toString value.toNat
  | readCodeAtPc => "MOVC A, @A+PC"
  | readCodeAtDptr => "MOVC A, @A+DPTR"
  | readExternal pointer => "MOVX A, " ++ pointer.text
  | writeExternal pointer => "MOVX " ++ pointer.text ++ ", A"
  | push address => "PUSH " ++ addressText address
  | pop address => "POP " ++ addressText address
  | exchange operand => "XCH A, " ++ operand.text
  | exchangeNibble pointer => "XCHD A, @R" ++ toString pointer.val
  | clearCarry => "CLR C"
  | setCarry => "SETB C"
  | complementCarry => "CPL C"
  | orCarry negated bit => "ORL C, " ++ bitText negated bit
  | andCarry negated bit => "ANL C, " ++ bitText negated bit
  | moveToCarry bit => "MOV C, " ++ addressText bit
  | moveFromCarry bit => "MOV " ++ addressText bit ++ ", C"
  | clearBit bit => "CLR " ++ addressText bit
  | setBit bit => "SETB " ++ addressText bit
  | complementBit bit => "CPL " ++ addressText bit
  | reserved => dataText 0xA5

end Trainer51
