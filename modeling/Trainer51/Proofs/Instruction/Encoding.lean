import Trainer51.Proofs.Instruction.OwnBytes

/-!
# Instructions back to code bytes

An instruction and its address tell the bytes that it was decoded from.  The opcode is the entry of
the table, the arguments are what the operands name, and a target gives back the offset, or the part
of an address, that stood in the code.

    offsetTo next (offset next rel) = rel                                       (offsetTo_offset)
    a target within its page is what the opcode and the argument say                 (inPage_mod)
    f.decode.encode f.address = f.own                                             (encode_decode)
-/

namespace Trainer51

/-! ## Targets -/

namespace Fetch

/-- The offset that leads from the end `next` of an instruction to `target`. -/
def offsetTo (next target : Word) : Byte := (target - next).toUInt8

@[simp]
theorem offsetTo_offset (next : Word) (rel : Byte) : offsetTo next (offset next rel) = rel := by
  have low : ∀ n, n < 256 → (Word.signExtend (UInt8.ofNat n)).toUInt8 = UInt8.ofNat n := by
    decide +kernel
  unfold offsetTo offset
  rw [UInt16.add_comm, UInt16.add_sub_cancel]
  exact Byte.forall_of_lt (p := fun b => (Word.signExtend b).toUInt8 = b) low rel

/-- Within its page a target is what the opcode and the argument say. -/
theorem inPage_mod (next : Word) (opcode arg : Byte) :
    (inPage next opcode arg).toNat % 2 ^ 11 = 256 * (opcode.toNat / 32) + arg.toNat := by
  have named : ∀ n, n < 256 → (((UInt8.ofNat n).toUInt16 &&& (0xE0 : Word)) <<< 3).toNat =
      256 * ((UInt8.ofNat n).toNat / 32) := by
    decide +kernel
  have named := Byte.forall_of_lt (p := fun b =>
    ((b.toUInt16 &&& (0xE0 : Word)) <<< 3).toNat = 256 * (b.toNat / 32)) named opcode
  have page : (next &&& (0xF800 : Word)).toNat % 2 ^ 11 = 0 := by
    rw [UInt16.toNat_and, Nat.and_mod_two_pow]
    exact Nat.and_zero _
  have ha := arg.toNat_lt
  have ho := opcode.toNat_lt
  unfold inPage
  rw [UInt16.toNat_or, UInt16.toNat_or, named, UInt8.toNat_toUInt16, Nat.or_mod_two_pow,
    Nat.or_mod_two_pow, page, Nat.zero_or, Nat.mod_eq_of_lt (by omega), Nat.mod_eq_of_lt (by omega)]
  exact (Nat.two_pow_add_eq_or_of_lt (i := 8) ha _).symm

theorem lo_inPage (next : Word) (opcode arg : Byte) : (inPage next opcode arg).lo = arg := by
  have := inPage_mod next opcode arg
  have ha := arg.toNat_lt
  apply UInt8.toNat_inj.1
  unfold Word.lo
  rw [UInt16.toNat_toUInt8]
  omega

/-- The high byte of a target ends in the bits that the opcode names. -/
theorem hi_inPage_mod (next : Word) (opcode arg : Byte) :
    (inPage next opcode arg).hi.toNat % 8 = opcode.toNat / 32 := by
  have := inPage_mod next opcode arg
  have ha := arg.toNat_lt
  have high : (inPage next opcode arg).hi.toNat = (inPage next opcode arg).toNat / 256 % 256 := by
    unfold Word.hi
    rw [UInt16.toNat_toUInt8, UInt16.toNat_shiftRight, Nat.shiftRight_eq_div_pow]
    rfl
  omega

end Fetch

/-! ## Encoding -/

/-- The opcode at an entry of the table. -/
def opcodeAt (row column : Nat) : Byte := UInt8.ofNat (16 * row + column)

@[simp]
def Logic.row : Logic → Nat
  | or => 0x4
  | and => 0x5
  | xor => 0x6

@[simp]
def AccumulatorOp.row : AccumulatorOp → Nat
  | add => 0x2
  | addWithCarry => 0x3
  | subtractWithBorrow => 0x9
  | logic op => op.row

@[simp]
def Rotation.row : Rotation → Nat
  | right => 0x0
  | rightThroughCarry => 0x1
  | left => 0x2
  | leftThroughCarry => 0x3

@[simp]
def Condition.row : Condition → Nat
  | carry => 0x4
  | noCarry => 0x5
  | zero => 0x6
  | notZero => 0x7

/-- The column of the instructions that name an operand. -/
@[simp]
def Operand.column : Operand → Nat
  | accumulator | immediate _ => 0x4
  | direct _ => 0x5
  | indirect pointer => 0x6 + pointer.val
  | register number => 0x8 + number.val

/-- The argument that an operand takes up. -/
@[simp]
def Operand.bytes : Operand → List Byte
  | immediate value => [value]
  | direct address => [address]
  | accumulator | indirect _ | register _ => []

/-- The column of the moves to and from external memory. -/
@[simp]
def ExternalPointer.column : ExternalPointer → Nat
  | dptr => 0x0
  | register pointer => 0x2 + pointer.val

/-- The row of a jump within a page, which names the target's bits above the argument. -/
def pageRow (target : Word) (call : Bool) : Nat := 2 * (target.hi.toNat % 8) + call.toNat

/-- The code bytes of an instruction at an address. -/
@[simp]
def Instruction.encode (address : Word) (i : Instruction) : List Byte :=
  let offset (target : Word) : Byte := Fetch.offsetTo (address + UInt16.ofNat i.length) target
  match i with
  | nop => [opcodeAt 0x0 0x0]
  | jump .short target => [opcodeAt 0x8 0x0, offset target]
  | jump .page target => [opcodeAt (pageRow target false) 0x1, target.lo]
  | jump .long target => [opcodeAt 0x0 0x2, target.hi, target.lo]
  -- a short call is printed as one within the page
  | call .short target | call .page target => [opcodeAt (pageRow target true) 0x1, target.lo]
  | call .long target => [opcodeAt 0x1 0x2, target.hi, target.lo]
  | ret => [opcodeAt 0x2 0x2]
  | returnFromInterrupt => [opcodeAt 0x3 0x2]
  | jumpIndexed => [opcodeAt 0x7 0x3]
  | jumpWhen condition target => [opcodeAt condition.row 0x0, offset target]
  | jumpIfBit set bit target => [opcodeAt (if set then 0x2 else 0x3) 0x0, bit, offset target]
  | jumpClearBit bit target => [opcodeAt 0x1 0x0, bit, offset target]
  | compareJump .accumulator right target =>
    opcodeAt 0xB right.column :: right.bytes ++ [offset target]
  | compareJump left right target => opcodeAt 0xB left.column :: right.bytes ++ [offset target]
  | decrementJump operand target => opcodeAt 0xD operand.column :: operand.bytes ++ [offset target]
  | accumulate op source => opcodeAt op.row source.column :: source.bytes
  | combine op address .accumulator => [opcodeAt op.row 0x2, address]
  | combine op address source => opcodeAt op.row 0x3 :: address :: source.bytes
  | increment operand => opcodeAt 0x0 operand.column :: operand.bytes
  | decrement operand => opcodeAt 0x1 operand.column :: operand.bytes
  | incrementDptr => [opcodeAt 0xA 0x3]
  | multiply => [opcodeAt 0xA 0x4]
  | divide => [opcodeAt 0x8 0x4]
  | decimalAdjust => [opcodeAt 0xD 0x4]
  | swapNibbles => [opcodeAt 0xC 0x4]
  | clearAccumulator => [opcodeAt 0xE 0x4]
  | complementAccumulator => [opcodeAt 0xF 0x4]
  | rotate rotation => [opcodeAt rotation.row 0x3]
  | move .accumulator (.immediate value) => [opcodeAt 0x7 0x4, value]
  | move .accumulator source => opcodeAt 0xE source.column :: source.bytes
  | move target .accumulator => opcodeAt 0xF target.column :: target.bytes
  | move target (.immediate value) => opcodeAt 0x7 target.column :: target.bytes ++ [value]
  | move (.direct target) source => opcodeAt 0x8 source.column :: source.bytes ++ [target]
  | move target source => opcodeAt 0xA target.column :: source.bytes
  | loadDptr value => [opcodeAt 0x9 0x0, value.hi, value.lo]
  | readCodeAtPc => [opcodeAt 0x8 0x3]
  | readCodeAtDptr => [opcodeAt 0x9 0x3]
  | readExternal pointer => [opcodeAt 0xE pointer.column]
  | writeExternal pointer => [opcodeAt 0xF pointer.column]
  | push address => [opcodeAt 0xC 0x0, address]
  | pop address => [opcodeAt 0xD 0x0, address]
  | exchange operand => opcodeAt 0xC operand.column :: operand.bytes
  | exchangeNibble pointer => [opcodeAt 0xD (0x6 + pointer.val)]
  | clearCarry => [opcodeAt 0xC 0x3]
  | setCarry => [opcodeAt 0xD 0x3]
  | complementCarry => [opcodeAt 0xB 0x3]
  | orCarry negated bit => [if negated then opcodeAt 0xA 0x0 else opcodeAt 0x7 0x2, bit]
  | andCarry negated bit => [if negated then opcodeAt 0xB 0x0 else opcodeAt 0x8 0x2, bit]
  | moveToCarry bit => [opcodeAt 0xA 0x2, bit]
  | moveFromCarry bit => [opcodeAt 0x9 0x2, bit]
  | clearBit bit => [opcodeAt 0xC 0x2, bit]
  | setBit bit => [opcodeAt 0xD 0x2, bit]
  | complementBit bit => [opcodeAt 0xB 0x2, bit]
  | reserved => [opcodeAt 0xA 0x5]

/-! ## The columns of the opcode table -/

namespace Fetch

variable (f : Fetch)

/-- The first bytes fetched. -/
def first (size : Nat) : List Byte := [f.opcode, f.arg1, f.arg2].take size

/-- The bytes that the instruction takes up. -/
def own : List Byte := f.first f.length

/-- An entry of the table is encoded as the bytes that it is read from. -/
def Encodes (i : Instruction) : Prop := i.encode f.address = f.first i.length

theorem opcode_eq : f.opcode = opcodeAt f.row f.column := by
  unfold opcodeAt row column
  rw [Nat.div_add_mod]
  exact UInt8.ofNat_toNat.symm

variable {f}

theorem exists_row {c : Nat} (h : f.column = c) :
    ∃ r < 16, f.row = r ∧ f.opcode = opcodeAt r c :=
  ⟨f.row, f.row_lt, rfl, h ▸ f.opcode_eq⟩

theorem column0_encodes (h : f.column = 0x0) : f.Encodes f.column0 := by
  obtain ⟨r, hr, row, opcode⟩ := exists_row h
  unfold column0 Encodes
  rw [row]
  interval_cases r
  all_goals
    simp [Instruction.length, Reach.size, first, opcode, near, far, after, long, Word.hi_ofBytes,
      Word.lo_ofBytes]

/-- The row of the column of page jumps is made of the bits that name the target. -/
theorem column1_encodes (h : f.column = 0x1) : f.Encodes f.column1 := by
  have opcode := f.opcode_eq
  have row : f.row = 2 * (f.opcode.toNat / 32) + f.row % 2 := by
    unfold Fetch.row
    omega
  rw [h] at opcode
  unfold column1 Encodes
  split
  · next even =>
    rw [even] at row
    simp only [Instruction.encode, pageRow, hi_inPage_mod, lo_inPage, Bool.toNat_false, ← row,
      ← opcode]
    rfl
  · next odd =>
    rw [Nat.mod_two_ne_zero.1 odd] at row
    simp only [Instruction.encode, pageRow, hi_inPage_mod, lo_inPage, Bool.toNat_true, ← row,
      ← opcode]
    rfl

theorem column2_encodes (h : f.column = 0x2) : f.Encodes f.column2 := by
  obtain ⟨r, hr, row, opcode⟩ := exists_row h
  unfold column2 Encodes
  rw [row]
  interval_cases r
  all_goals
    simp [Instruction.length, Reach.size, Operand.size, first, opcode, long, Word.hi_ofBytes,
      Word.lo_ofBytes]

theorem column3_encodes (h : f.column = 0x3) : f.Encodes f.column3 := by
  obtain ⟨r, hr, row, opcode⟩ := exists_row h
  unfold column3 Encodes
  rw [row]
  interval_cases r
  all_goals
    simp [Instruction.length, Operand.size, first, opcode]

theorem column4_encodes (h : f.column = 0x4) : f.Encodes f.column4 := by
  obtain ⟨r, hr, row, opcode⟩ := exists_row h
  unfold column4 Encodes
  rw [row]
  interval_cases r
  all_goals
    simp [Instruction.length, Operand.size, first, opcode, far, after, accumulatorOp?]

theorem columnDirect_encodes (h : f.column = 0x5) : f.Encodes f.columnDirect := by
  obtain ⟨r, hr, row, opcode⟩ := exists_row h
  unfold columnDirect Encodes
  rw [row]
  interval_cases r
  all_goals
    simp [Instruction.length, Operand.size, first, opcode, far, after, uniform?, accumulatorOp?]

theorem columnIndirect_encodes (pointer : Fin 2) (h : f.column = 0x6 + pointer.val) :
    f.Encodes (f.columnIndirect pointer) := by
  obtain ⟨r, hr, row, opcode⟩ := exists_row h
  unfold columnIndirect Encodes
  rw [row]
  interval_cases r
  all_goals
    simp [Instruction.length, Operand.size, first, opcode, far, after, uniform?, accumulatorOp?]

theorem columnRegister_encodes (number : Fin 8) (h : f.column = 0x8 + number.val) :
    f.Encodes (f.columnRegister number) := by
  obtain ⟨r, hr, row, opcode⟩ := exists_row h
  unfold columnRegister Encodes
  rw [row]
  interval_cases r
  all_goals
    simp [Instruction.length, Operand.size, first, opcode, near, far, after, uniform?,
      accumulatorOp?]

/-- Encoding undoes decoding, at the address of the instruction. -/
theorem encode_decode (f : Fetch) : f.decode.encode f.address = f.own := by
  show f.Encodes f.decode
  have hc := f.column_lt
  unfold decode
  generalize h : f.column = c at hc
  interval_cases c
  · exact column0_encodes h
  · exact column1_encodes h
  · exact column2_encodes h
  · exact column3_encodes h
  · exact column4_encodes h
  · exact columnDirect_encodes h
  · exact columnIndirect_encodes 0 h
  · exact columnIndirect_encodes 1 h
  · exact columnRegister_encodes 0 h
  · exact columnRegister_encodes 1 h
  · exact columnRegister_encodes 2 h
  · exact columnRegister_encodes 3 h
  · exact columnRegister_encodes 4 h
  · exact columnRegister_encodes 5 h
  · exact columnRegister_encodes 6 h
  · exact columnRegister_encodes 7 h

end Fetch

end Trainer51
