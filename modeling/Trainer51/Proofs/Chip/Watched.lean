import Trainer51.Proofs.Chip.Nesting
import Trainer51.Proofs.Chip.Written

/-!
# A chip with its bus watched

What a chip writes is seen on its bus.  A bus that records the addresses written to it takes no part
in what the chip does, so the record of a watched chip tells what the plain one writes.

    ((c.step code).1.unwatch, (c.step code).2) = c.unwatch.step code             (unwatch_step)
-/

namespace Trainer51

/-- Registers on a bus, and the addresses written over it, the latest last. -/
structure Watched (P : Type) where
  registers : P
  written : List Byte

instance {P : Type} [RegisterBus P] : RegisterBus (Watched P) where
  read w a := RegisterBus.read w.registers a
  readLatch w a := RegisterBus.readLatch w.registers a
  write w a v := ⟨RegisterBus.write w.registers a v, w.written ++ [a]⟩

namespace Chip

variable {X P : Type}

def watch (c : Chip X P) : Chip X (Watched P) := ⟨c.core, c.external, ⟨c.registers, []⟩⟩

def unwatch (c : Chip X (Watched P)) : Chip X P := ⟨c.core, c.external, c.registers.registers⟩

variable [RegisterBus P]

theorem written?_unwatch (c : Chip X (Watched P)) (i : Instruction) :
    c.unwatch.written? i = c.written? i := by
  cases i <;> rfl

theorem unwatch_writeSfr (c : Chip X (Watched P)) (a v : Byte) :
    (c.writeSfr a v).unwatch = c.unwatch.writeSfr a v := by
  unfold writeSfr
  cases CoreRegister.ofAddress? a <;> rfl

theorem unwatch_writeDirect (c : Chip X (Watched P)) (a v : Byte) :
    (c.writeDirect a v).unwatch = c.unwatch.writeDirect a v := by
  unfold writeDirect
  split
  · rfl
  · exact c.unwatch_writeSfr a v

theorem unwatch_write (c : Chip X (Watched P)) (operand : Operand) (v : Byte) :
    (c.write operand v).unwatch = c.unwatch.write operand v := by
  cases operand with
  | direct address => exact c.unwatch_writeDirect address v
  | _ => rfl

variable [ExternalBus X]

theorem unwatch_execute (code : Word → Byte) (c : Chip X (Watched P)) (i : Instruction) :
    (c.execute code i).unwatch = c.unwatch.execute code i := by
  cases i with
  | jumpClearBit bit target =>
    show (if c.readBitLatch bit then (c.writeBit bit false).mapCore (·.jump target) else c).unwatch =
      if c.readBitLatch bit then (c.unwatch.writeBit bit false).mapCore (·.jump target)
      else c.unwatch
    split
    · exact congrArg (·.mapCore (·.jump target)) (c.unwatch_writeDirect _ _)
    · rfl
  | decrementJump operand target =>
    exact congrArg (·.mapCore (·.jumpWhen (c.readBack operand - 1 != 0) target))
      (c.unwatch_write operand _)
  | combine op address source => exact c.unwatch_writeDirect address _
  | increment operand | decrement operand => exact c.unwatch_write operand _
  | move target source => exact c.unwatch_write target _
  | exchange operand =>
    exact congrArg (·.write .accumulator (c.read operand)) (c.unwatch_write operand _)
  | pop address => exact unwatch_writeDirect { c with core := c.core.pop.2 } address _
  | moveFromCarry bit | clearBit bit | setBit bit | complementBit bit =>
    exact c.unwatch_writeDirect _ _
  | _ => rfl

theorem unwatch_executeNext (code : Word → Byte) (c : Chip X (Watched P)) :
    ((c.executeNext code).1.unwatch, (c.executeNext code).2) = c.unwatch.executeNext code := by
  by_cases reserved : (Fetch.ofCode code c.core.pc).decode = .reserved
  · rw [executeNext_of_reserved reserved, executeNext_of_reserved (c := c.unwatch) reserved]
    rfl
  · rw [executeNext_of_ne_reserved rfl reserved,
      executeNext_of_ne_reserved (c := c.unwatch) rfl reserved]
    exact congrArg (fun d : Chip X P => (d.mapCore Core.updateParity, _))
      (unwatch_execute code _ _)

omit [ExternalBus X] in
theorem unwatch_acknowledge (c : Chip X (Watched P)) (i : Interrupt) :
    (c.acknowledge i).unwatch = c.unwatch.acknowledge i := by
  have same : RegisterBus.read c.unwatch.registers Sfr.tcon =
      RegisterBus.read c.registers Sfr.tcon := rfl
  unfold acknowledge
  dsimp only
  rw [same]
  cases i.acknowledged? (RegisterBus.read c.registers Sfr.tcon) <;> rfl

omit [ExternalBus X] in
theorem unwatch_takeInterrupt (c : Chip X (Watched P)) :
    (c.takeInterrupt.1.unwatch, c.takeInterrupt.2) = c.unwatch.takeInterrupt := by
  have same : c.unwatch.entry? = c.entry? := rfl
  cases entry : c.entry? with
  | none =>
    rw [takeInterrupt_of_no_entry entry, takeInterrupt_of_no_entry (same.trans entry)]
    rfl
  | some taken =>
    obtain ⟨i, level⟩ := taken
    rw [takeInterrupt_of_entry entry, takeInterrupt_of_entry (same.trans entry)]
    have released := unwatch_acknowledge (c.mapCore ({ · with hold := false })) i
    exact congrArg (fun d : Chip X P => (d.mapCore fun core =>
      { core.call i.vector with inService := core.inService.enter level }, 2)) released

/-- A chip with its bus watched does what it does unwatched. -/
theorem unwatch_step (code : Word → Byte) (c : Chip X (Watched P)) :
    ((c.step code).1.unwatch, (c.step code).2) = c.unwatch.step code := by
  have taken := c.unwatch_takeInterrupt
  have next := unwatch_executeNext code c.takeInterrupt.1
  unfold step
  rw [← taken]
  dsimp only
  rw [← next]

/-- The registers on the bus that the next step writes, an acknowledged request included. -/
def writes (code : Word → Byte) (c : Chip X P) : List Byte :=
  (c.watch.step code).1.registers.written

end Chip

end Trainer51
