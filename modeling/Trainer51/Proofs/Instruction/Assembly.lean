import Trainer51.Proofs.Instruction.Encoding
import Trainer51.Proofs.Instruction.Phrase
import Trainer51.Proofs.Listing.Tiling

/-!
# Lines back to code bytes

The line that the listing shows for an instruction tells the instruction, and with its address the
code bytes.  So at one address no two encodings are listed alike.

    i.phrase.text = i.text                                                        (text_phrase)
    i.phrase.instruction? = some i.listed                                 (instruction?_phrase)
    assemble? f.address f.decode.text = some f.own                           (assemble?_decode)
-/

namespace Trainer51

/-! ## Instructions -/

namespace Operand

def token : Operand → Token
  | accumulator => .accumulator
  | immediate value => .number value.toUInt16
  | direct address => .address address.toUInt16
  | indirect pointer => .indirect pointer
  | register number => .register number

theorem text_token (o : Operand) : o.token.text = o.text := by
  cases o <;> rfl

end Operand

def ExternalPointer.token : ExternalPointer → Token
  | dptr => .atDptr
  | register pointer => .indirect pointer

/-- An addressable bit, or its complement. -/
def Token.ofBit (negated : Bool) (bit : Byte) : Token :=
  if negated then complement bit.toUInt16 else address bit.toUInt16

/-- How the listing puts an instruction. -/
def Instruction.phrase : Instruction → Phrase
  | nop => ⟨.nop, []⟩
  | jump reach target => ⟨.jump reach, [.address target]⟩
  | call .short target | call .page target => ⟨.acall, [.address target]⟩
  | call .long target => ⟨.lcall, [.address target]⟩
  | ret => ⟨.ret, []⟩
  | returnFromInterrupt => ⟨.reti, []⟩
  | jumpIndexed => ⟨.jmp, [.tableDptr]⟩
  | jumpWhen condition target => ⟨.branch condition, [.address target]⟩
  | jumpIfBit set bit target => ⟨.bitBranch set, [.address bit.toUInt16, .address target]⟩
  | jumpClearBit bit target => ⟨.jbc, [.address bit.toUInt16, .address target]⟩
  | compareJump left right target => ⟨.cjne, [left.token, right.token, .address target]⟩
  | decrementJump operand target => ⟨.djnz, [operand.token, .address target]⟩
  | accumulate op source => ⟨.operate op, [.accumulator, source.token]⟩
  | combine op address source =>
    ⟨.operate (.logic op), [.address address.toUInt16, source.token]⟩
  | increment operand => ⟨.inc, [operand.token]⟩
  | decrement operand => ⟨.dec, [operand.token]⟩
  | incrementDptr => ⟨.inc, [.dptr]⟩
  | multiply => ⟨.mul, [.pair]⟩
  | divide => ⟨.div, [.pair]⟩
  | decimalAdjust => ⟨.da, [.accumulator]⟩
  | swapNibbles => ⟨.swap, [.accumulator]⟩
  | clearAccumulator => ⟨.clr, [.accumulator]⟩
  | complementAccumulator => ⟨.cpl, [.accumulator]⟩
  | rotate rotation => ⟨.rotate rotation, [.accumulator]⟩
  | move target source => ⟨.mov, [target.token, source.token]⟩
  | loadDptr value => ⟨.mov, [.dptr, .number value]⟩
  | readCodeAtPc => ⟨.movc, [.accumulator, .tablePc]⟩
  | readCodeAtDptr => ⟨.movc, [.accumulator, .tableDptr]⟩
  | readExternal pointer => ⟨.movx, [.accumulator, pointer.token]⟩
  | writeExternal pointer => ⟨.movx, [pointer.token, .accumulator]⟩
  | push address => ⟨.push, [.address address.toUInt16]⟩
  | pop address => ⟨.pop, [.address address.toUInt16]⟩
  | exchange operand => ⟨.xch, [.accumulator, operand.token]⟩
  | exchangeNibble pointer => ⟨.xchd, [.accumulator, .indirect pointer]⟩
  | clearCarry => ⟨.clr, [.carry]⟩
  | setCarry => ⟨.setb, [.carry]⟩
  | complementCarry => ⟨.cpl, [.carry]⟩
  | orCarry negated bit => ⟨.operate (.logic .or), [.carry, .ofBit negated bit]⟩
  | andCarry negated bit => ⟨.operate (.logic .and), [.carry, .ofBit negated bit]⟩
  | moveToCarry bit => ⟨.mov, [.carry, .address bit.toUInt16]⟩
  | moveFromCarry bit => ⟨.mov, [.address bit.toUInt16, .carry]⟩
  | clearBit bit => ⟨.clr, [.address bit.toUInt16]⟩
  | setBit bit => ⟨.setb, [.address bit.toUInt16]⟩
  | complementBit bit => ⟨.cpl, [.address bit.toUInt16]⟩
  | reserved => ⟨.db, [.address 0xA5]⟩

theorem Instruction.text_phrase (i : Instruction) : i.phrase.text = i.text := by
  cases i with
  | call reach target => cases reach <;> rfl
  | jumpIfBit set bit target => cases set <;> rfl
  | compareJump left right target =>
    show "CJNE" ++ " " ++ left.token.text ++ ", " ++ right.token.text ++ ", " ++ _ = _
    rw [left.text_token, right.text_token]
    rfl
  | decrementJump operand target =>
    show "DJNZ" ++ " " ++ operand.token.text ++ ", " ++ _ = _
    rw [operand.text_token]
    rfl
  | accumulate op source =>
    have begun : op.text ++ " " ++ "A" ++ ", " = op.text ++ " A, " := by
      rw [String.append_assoc, String.append_assoc]
      rfl
    show op.text ++ " " ++ "A" ++ ", " ++ source.token.text = _
    rw [begun, source.text_token]
    rfl
  | combine op address source =>
    show op.text ++ " " ++ addressText address ++ ", " ++ source.token.text = _
    rw [source.text_token]
    rfl
  | increment operand =>
    show "INC" ++ " " ++ operand.token.text = _
    rw [operand.text_token]
    rfl
  | decrement operand =>
    show "DEC" ++ " " ++ operand.token.text = _
    rw [operand.text_token]
    rfl
  | rotate rotation => cases rotation <;> rfl
  | move target source =>
    show "MOV" ++ " " ++ target.token.text ++ ", " ++ source.token.text = _
    rw [target.text_token, source.text_token]
    rfl
  | readExternal pointer => cases pointer <;> rfl
  | writeExternal pointer =>
    cases pointer with
    | dptr => rfl
    | register pointer => exact String.append_assoc
  | exchange operand =>
    show "XCH" ++ " " ++ "A" ++ ", " ++ operand.token.text = _
    rw [operand.text_token]
    rfl
  | orCarry negated bit => cases negated <;> rfl
  | andCarry negated bit => cases negated <;> rfl
  | moveFromCarry bit => exact String.append_assoc
  | _ => rfl

/-- The operand that is printed as a token. -/
def Token.operand? : Token → Option Operand
  | accumulator => some .accumulator
  | number value => some (.immediate value.toUInt8)
  | address value => some (.direct value.toUInt8)
  | indirect pointer => some (.indirect pointer)
  | register name => some (.register name)
  | _ => none

def Token.pointer? : Token → Option ExternalPointer
  | atDptr => some .dptr
  | indirect pointer => some (.register pointer)
  | _ => none

theorem Operand.operand?_token (o : Operand) : o.token.operand? = some o := by
  cases o <;> simp [token, Token.operand?]

/-- The instruction that the listing puts so. -/
def Phrase.instruction? (p : Phrase) : Option Instruction :=
  match p.mnemonic, p.tokens with
  | .nop, [] => some .nop
  | .jump reach, [.address target] => some (.jump reach target)
  | .acall, [.address target] => some (.call .page target)
  | .lcall, [.address target] => some (.call .long target)
  | .ret, [] => some .ret
  | .reti, [] => some .returnFromInterrupt
  | .jmp, [.tableDptr] => some .jumpIndexed
  | .branch condition, [.address target] => some (.jumpWhen condition target)
  | .bitBranch set, [.address bit, .address target] => some (.jumpIfBit set bit.toUInt8 target)
  | .jbc, [.address bit, .address target] => some (.jumpClearBit bit.toUInt8 target)
  | .cjne, [left, right, .address target] => do
    return .compareJump (← left.operand?) (← right.operand?) target
  | .djnz, [t, .address target] => do return .decrementJump (← t.operand?) target
  | .operate op, [.accumulator, t] => do return .accumulate op (← t.operand?)
  | .operate (.logic .or), [.carry, .address bit] => some (.orCarry false bit.toUInt8)
  | .operate (.logic .or), [.carry, .complement bit] => some (.orCarry true bit.toUInt8)
  | .operate (.logic .and), [.carry, .address bit] => some (.andCarry false bit.toUInt8)
  | .operate (.logic .and), [.carry, .complement bit] => some (.andCarry true bit.toUInt8)
  | .operate (.logic op), [.address a, t] => do return .combine op a.toUInt8 (← t.operand?)
  | .inc, [.dptr] => some .incrementDptr
  | .inc, [t] => do return .increment (← t.operand?)
  | .dec, [t] => do return .decrement (← t.operand?)
  | .mul, [.pair] => some .multiply
  | .div, [.pair] => some .divide
  | .da, [.accumulator] => some .decimalAdjust
  | .swap, [.accumulator] => some .swapNibbles
  | .clr, [.accumulator] => some .clearAccumulator
  | .clr, [.carry] => some .clearCarry
  | .clr, [.address bit] => some (.clearBit bit.toUInt8)
  | .cpl, [.accumulator] => some .complementAccumulator
  | .cpl, [.carry] => some .complementCarry
  | .cpl, [.address bit] => some (.complementBit bit.toUInt8)
  | .setb, [.carry] => some .setCarry
  | .setb, [.address bit] => some (.setBit bit.toUInt8)
  | .rotate rotation, [.accumulator] => some (.rotate rotation)
  | .mov, [.dptr, .number value] => some (.loadDptr value)
  | .mov, [.carry, .address bit] => some (.moveToCarry bit.toUInt8)
  | .mov, [.address bit, .carry] => some (.moveFromCarry bit.toUInt8)
  | .mov, [target, source] => do return .move (← target.operand?) (← source.operand?)
  | .movc, [.accumulator, .tablePc] => some .readCodeAtPc
  | .movc, [.accumulator, .tableDptr] => some .readCodeAtDptr
  | .movx, [.accumulator, t] => do return .readExternal (← t.pointer?)
  | .movx, [t, .accumulator] => do return .writeExternal (← t.pointer?)
  | .push, [.address a] => some (.push a.toUInt8)
  | .pop, [.address a] => some (.pop a.toUInt8)
  | .xch, [.accumulator, t] => do return .exchange (← t.operand?)
  | .xchd, [.accumulator, .indirect pointer] => some (.exchangeNibble pointer)
  | .db, [.address _] => some .reserved
  | _, _ => none

/-- A short call, which no code has, is put like one within the page. -/
def Instruction.listed : Instruction → Instruction
  | call .short target => call .page target
  | i => i

theorem Instruction.encode_listed (i : Instruction) (address : Word) :
    i.listed.encode address = i.encode address := by
  cases i with
  | call reach target => cases reach <;> rfl
  | _ => rfl

theorem Instruction.instruction?_phrase (i : Instruction) :
    i.phrase.instruction? = some i.listed := by
  cases i with
  | call reach target => cases reach <;> rfl
  | combine op address source =>
    cases op <;> simp [phrase, Phrase.instruction?, listed, Operand.operand?_token]
  -- an increment may be that of the data pointer, and a move one of the carry
  | increment operand =>
    cases operand <;> simp [phrase, Phrase.instruction?, listed, Operand.token, Token.operand?]
  | move target source =>
    cases target <;> cases source <;>
      simp [phrase, Phrase.instruction?, listed, Operand.token, Token.operand?]
  | readExternal pointer | writeExternal pointer =>
    cases pointer <;>
      simp [phrase, Phrase.instruction?, listed, ExternalPointer.token, Token.pointer?]
  | orCarry negated bit | andCarry negated bit =>
    cases negated <;> simp [phrase, Phrase.instruction?, listed, Token.ofBit]
  | _ => simp [phrase, Phrase.instruction?, listed, Operand.operand?_token]

/-! ## Listings -/

/-- The code bytes of a line of the listing at an address. -/
def assemble? (address : Word) (line : String) : Option (List Byte) := do
  let phrase ← Phrase.read? line
  let instruction ← phrase.instruction?
  return instruction.encode address

/-- The line of an instruction assembles to the bytes that the instruction was decoded from. -/
theorem assemble?_decode (f : Fetch) : assemble? f.address f.decode.text = some f.own := by
  unfold assemble?
  rw [← f.decode.text_phrase, Phrase.read?_text, ← f.encode_decode, ← f.decode.encode_listed,
    Option.bind_eq_bind, Option.bind_some, f.decode.instruction?_phrase]
  rfl

theorem Fetch.length_own (f : Fetch) : f.own.length = f.length := by
  have le : f.length ≤ 3 := by
    rw [f.length_eq]
    exact (opcodeLength_bounds _).2
  exact List.length_take_of_le le

/-- **The listing is unambiguous.**  Two instructions at one address with the same text are equally
long and have the same bytes. -/
theorem listing_unambiguous (f g : Fetch) (address : f.address = g.address)
    (text : f.decode.text = g.decode.text) : f.length = g.length ∧ f.own = g.own := by
  have assembled : some f.own = some g.own := by
    rw [← assemble?_decode f, ← assemble?_decode g, address, text]
  have own := Option.some.inj assembled
  refine ⟨?_, own⟩
  rw [← f.length_own, ← g.length_own, own]

/-- A short jump over the end of code memory, and a jump that ends a page and stays in the next
one, with other bytes behind them. -/
theorem listing_unambiguous_wrapped :
    let short (other : Byte) : Fetch := ⟨0xFFFE, 0x80, 0x05, other⟩
    let page (other : Byte) : Fetch := ⟨0x07FE, 0xE1, 0x00, other⟩
    (short 0x00).decode.text = "SJMP 5h" ∧ (short 0xFF).decode.text = "SJMP 5h" ∧
      (short 0x00).own = (short 0xFF).own ∧ (page 0x00).decode.text = "AJMP F00h" ∧
      (page 0x00).length = (page 0xFF).length ∧ (page 0x00).own = (page 0xFF).own := by
  intro short page
  have jumps : (short 0x00).decode.text = "SJMP 5h" := by decide +kernel
  have jumps' : (short 0xFF).decode.text = "SJMP 5h" := by decide +kernel
  have stays : (page 0x00).decode.text = "AJMP F00h" := by decide +kernel
  have stays' : (page 0xFF).decode.text = "AJMP F00h" := by decide +kernel
  obtain ⟨-, own⟩ := listing_unambiguous (short 0x00) (short 0xFF) rfl (jumps.trans jumps'.symm)
  obtain ⟨length, own'⟩ := listing_unambiguous (page 0x00) (page 0xFF) rfl (stays.trans stays'.symm)
  exact ⟨jumps, jumps', own, stays, length, own'⟩

end Trainer51
