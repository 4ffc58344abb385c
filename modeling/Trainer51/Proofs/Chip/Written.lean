import Trainer51.Proofs.Chip.Flow

/-!
# What one instruction writes

Of the registers beside the core's an instruction writes at most one, and which one shows in the
instruction itself: a direct address, or the byte of a bit.

    Wrote (c.written? i) c.registers (c.execute code i).registers                   (wrote_execute)
    a step takes the time of its instruction and of an interrupt entry,
      and writes what the instruction writes                                              (step_ok)
-/

namespace Trainer51

/-- The direct address that an operand stands for. -/
def Operand.direct? : Operand → Option Byte
  | .direct address => some address
  | _ => none

/-- Of the registers at most the one at the address has been written. -/
def Wrote {P : Type} [RegisterBus P] (written : Option Byte) (before after : P) : Prop :=
  after = before ∨ ∃ a v, written = some a ∧ after = RegisterBus.write before a v

namespace Chip

variable {X P : Type} [RegisterBus P]

/-- The direct address that an instruction writes.  Some are internal RAM, some registers of the
core, and the others lie on the bus. -/
def written? (c : Chip X P) : Instruction → Option Byte
  | .jumpClearBit bit _ => if c.readBitLatch bit then some (bitByte bit) else none
  | .decrementJump operand _ => operand.direct?
  | .combine _ address _ => some address
  | .increment operand | .decrement operand | .exchange operand => operand.direct?
  | .move target _ => target.direct?
  | .pop address => some address
  | .moveFromCarry bit | .clearBit bit | .setBit bit | .complementBit bit => some (bitByte bit)
  | _ => none

/-- What an instruction writes does not depend on where it is. -/
theorem written?_jump (c : Chip X P) (w : Word) (i : Instruction) :
    (c.mapCore (·.jump w)).written? i = c.written? i := by
  cases i <;> rfl

/-! ## Writes -/

theorem wrote_writeSfr (c : Chip X P) (a v : Byte) :
    Wrote (some a) c.registers (c.writeSfr a v).registers := by
  unfold writeSfr
  split
  · exact .inl rfl
  · exact .inr ⟨a, v, rfl, rfl⟩

theorem wrote_writeDirect (c : Chip X P) (a v : Byte) :
    Wrote (some a) c.registers (c.writeDirect a v).registers := by
  unfold writeDirect
  split
  · exact .inl rfl
  · exact c.wrote_writeSfr a v

theorem wrote_writeBit (c : Chip X P) (bit : Byte) (on : Bool) :
    Wrote (some (bitByte bit)) c.registers (c.writeBit bit on).registers :=
  c.wrote_writeDirect _ _

theorem wrote_write (c : Chip X P) (operand : Operand) (v : Byte) :
    Wrote operand.direct? c.registers (c.write operand v).registers := by
  cases operand with
  | direct address => exact c.wrote_writeDirect address v
  | _ => exact .inl rfl

/-! ## Execution -/

variable [ExternalBus X]

theorem wrote_execute (code : Word → Byte) (c : Chip X P) (i : Instruction) :
    Wrote (c.written? i) c.registers (c.execute code i).registers := by
  cases i with
  | jumpClearBit bit target =>
    show Wrote (if c.readBitLatch bit then some (bitByte bit) else none) c.registers
      (if c.readBitLatch bit then (c.writeBit bit false).mapCore (·.jump target) else c).registers
    split
    · exact c.wrote_writeBit bit false
    · exact .inl rfl
  | decrementJump operand target => exact c.wrote_write operand _
  | combine op address source => exact c.wrote_writeDirect address _
  | increment operand | decrement operand => exact c.wrote_write operand _
  | move target source => exact c.wrote_write target _
  | exchange operand => exact c.wrote_write operand _
  | pop address => exact wrote_writeDirect { c with core := c.core.pop.2 } address _
  | moveFromCarry bit | clearBit bit | setBit bit | complementBit bit =>
    exact c.wrote_writeBit bit _
  | _ => exact .inl rfl

/-- The instruction that a step executes, behind the entry of an interrupt if there is one. -/
def upcoming (code : Word → Byte) (c : Chip X P) : Instruction :=
  (Fetch.ofCode code c.takeInterrupt.1.core.pc).decode

omit [ExternalBus X] in
/-- The entry of an interrupt takes two machine cycles. -/
theorem cycles_takeInterrupt (c : Chip X P) :
    c.takeInterrupt.2 = if c.entry?.isSome then 2 else 0 := by
  cases h : c.entry? with
  | none =>
    rw [takeInterrupt_of_no_entry h]
    rfl
  | some entry =>
    rw [takeInterrupt_of_entry h]
    rfl

theorem step_of_reserved {code : Word → Byte} {c : Chip X P} (h : c.upcoming code = .reserved) :
    c.step code = (c.takeInterrupt.1,
      .error ⟨c.takeInterrupt.1.core.pc, code c.takeInterrupt.1.core.pc⟩) := by
  unfold step
  dsimp only
  rw [executeNext_of_reserved h]
  rfl

theorem step_of_ne_reserved {code : Word → Byte} {c : Chip X P} (h : c.upcoming code ≠ .reserved) :
    c.step code = (((c.takeInterrupt.1.mapCore
        (·.jump (Fetch.ofCode code c.takeInterrupt.1.core.pc).next)).execute code
          (c.upcoming code)).mapCore Core.updateParity,
      .ok (c.takeInterrupt.2 + (c.upcoming code).cycles)) := by
  unfold step
  dsimp only
  rw [executeNext_of_ne_reserved rfl h]
  rfl

/-- A step that does not fail executes the upcoming instruction behind the entry. -/
theorem step_eq_ok {code : Word → Byte} {c c' : Chip X P} {cycles : Nat}
    (h : c.step code = (c', .ok cycles)) :
    c.upcoming code ≠ .reserved ∧ cycles = c.takeInterrupt.2 + (c.upcoming code).cycles ∧
      ∃ next, c' = ((c.takeInterrupt.1.mapCore (·.jump next)).execute code
        (c.upcoming code)).mapCore Core.updateParity := by
  let entered := c.takeInterrupt.1
  have stepped : ((entered.executeNext code).1, (entered.executeNext code).2.map
      (c.takeInterrupt.2 + ·)) = (c', .ok cycles) := h
  by_cases reserved : c.upcoming code = .reserved
  · rw [executeNext_of_reserved reserved] at stepped
    cases stepped
  · rw [executeNext_of_ne_reserved (c := entered) rfl reserved] at stepped
    cases stepped
    exact ⟨reserved, rfl, _, rfl⟩

/-- A step that executes an instruction takes the time of the instruction and of the entry, and
writes what the instruction writes. -/
theorem step_ok {code : Word → Byte} {c c' : Chip X P} {cycles : Nat}
    (h : c.step code = (c', .ok cycles)) :
    cycles = (c.upcoming code).cycles + (if c.entry?.isSome then 2 else 0) ∧
      Wrote (c.takeInterrupt.1.written? (c.upcoming code)) c.takeInterrupt.1.registers
        c'.registers := by
  obtain ⟨-, time, next, rfl⟩ := step_eq_ok h
  constructor
  · rw [time, c.cycles_takeInterrupt, Nat.add_comm]
  · have wrote := (c.takeInterrupt.1.mapCore (·.jump next)).wrote_execute code (c.upcoming code)
    rw [written?_jump] at wrote
    exact wrote

end Chip

end Trainer51
