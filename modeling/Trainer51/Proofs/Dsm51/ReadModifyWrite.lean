import Trainer51.Proofs.Chip.Written
import Trainer51.Proofs.Dsm51.RegisterSpace
import Trainer51.Proofs.Instruction.Opcodes

/-!
# What is read to be written back is read from the latches

An instruction that writes back what it has read takes a port by its latch.  So what the outside
drives onto the pins makes no difference to it, neither to what it writes nor to where it jumps; nor
do the pins decide which interrupt a step takes.

    (c.withOutside outside).readLatch a = c.readLatch a                    (readLatch_withOutside)
    the chip with other levels takes the same interrupt                (takeInterrupt_withOutside)
    i.readsBack → (c.withOutside outside).execute code i = (c.execute code i).withOutside outside
                                                                             (execute_withOutside)
    the same of a step                                                          (step_withOutside)
-/

namespace Trainer51

/-- The instructions that write back what they have read: a port is read by its latch. -/
def Instruction.readsBack : Instruction → Bool
  | increment _ | decrement _ | decrementJump .. | combine .. => true
  | clearBit _ | setBit _ | complementBit _ | moveFromCarry _ | jumpClearBit .. => true
  | _ => false

/-- The registers with other levels on the pins. -/
def Peripherals.withOutside (p : Peripherals) (outside : PortBytes) : Peripherals :=
  { p with outside }

theorem Peripherals.write_withOutside (p : Peripherals) (outside : PortBytes) (a v : Byte) :
    (p.withOutside outside).write a v = (p.write a v).withOutside outside := by
  unfold write
  split
  · rfl
  · split <;> rfl

namespace Chip

/-- The chip with other levels on the pins. -/
def withOutside (c : Chip ExternalData Peripherals) (outside : PortBytes) :
    Chip ExternalData Peripherals :=
  { c with registers := c.registers.withOutside outside }

variable (c : Chip ExternalData Peripherals) (outside : PortBytes)

/-! ## Reads -/

theorem stored_withOutside (p : RegisterPlace) :
    (c.withOutside outside).stored p = c.stored p := by
  cases p <;> rfl

theorem readLatch_withOutside (a : Byte) :
    (c.withOutside outside).readLatch a = c.readLatch a := by
  by_cases ram : a < 0x80
  · rw [readLatch_of_lt _ ram, readLatch_of_lt _ ram]
    rfl
  · have high := UInt8.not_lt.1 ram
    rw [readLatch_eq_stored _ high, readLatch_eq_stored _ high, stored_withOutside]

theorem readBitLatch_withOutside (bit : Byte) :
    (c.withOutside outside).readBitLatch bit = c.readBitLatch bit :=
  congrArg (·.bit bit.toNat) (c.readLatch_withOutside outside _)

theorem readBack_withOutside (operand : Operand) :
    (c.withOutside outside).readBack operand = c.readBack operand := by
  cases operand with
  | direct address => exact c.readLatch_withOutside outside address
  | _ => rfl

/-- Only a direct address leads to the pins. -/
theorem read_withOutside {operand : Operand} (h : operand.isDirect = false) :
    (c.withOutside outside).read operand = c.read operand := by
  cases operand with
  | direct address => cases h
  | _ => rfl

/-! ## Writes -/

theorem writeDirect_withOutside (a v : Byte) :
    (c.withOutside outside).writeDirect a v = (c.writeDirect a v).withOutside outside := by
  unfold writeDirect writeSfr
  split
  · rfl
  · split
    · rfl
    · exact congrArg (Chip.mk _ _) (c.registers.write_withOutside outside a v)

theorem writeBit_withOutside (bit : Byte) (on : Bool) :
    (c.withOutside outside).writeBit bit on = (c.writeBit bit on).withOutside outside := by
  unfold writeBit
  rw [readLatch_withOutside, writeDirect_withOutside]

theorem write_withOutside (operand : Operand) (v : Byte) :
    (c.withOutside outside).write operand v = (c.write operand v).withOutside outside := by
  cases operand with
  | direct address => exact c.writeDirect_withOutside outside address v
  | _ => rfl

/-! ## Interrupts -/

/-- The registers that decide about interrupts are no ports. -/
theorem entry?_withOutside : entry? (c.withOutside outside) = c.entry? := by
  have registers : (c.withOutside outside).interruptRegisters = c.interruptRegisters := rfl
  unfold entry? pending?
  rw [registers]
  rfl

theorem acknowledge_withOutside (i : Interrupt) :
    (c.withOutside outside).acknowledge i = (c.acknowledge i).withOutside outside := by
  have tcon : RegisterBus.read (c.withOutside outside).registers Sfr.tcon =
      RegisterBus.read c.registers Sfr.tcon := rfl
  unfold acknowledge
  dsimp only
  rw [tcon]
  split
  · exact congrArg (Chip.mk _ _) (c.registers.write_withOutside outside _ _)
  · rfl

theorem enter_withOutside (i : Interrupt) (level : Level) :
    (c.withOutside outside).enter i level = (c.enter i level).withOutside outside := by
  unfold enter
  rw [acknowledge_withOutside]
  rfl

theorem takeInterrupt_withOutside :
    (c.withOutside outside).takeInterrupt =
      (c.takeInterrupt.1.withOutside outside, c.takeInterrupt.2) := by
  have same := c.entry?_withOutside outside
  cases entry : c.entry? with
  | none =>
    rw [takeInterrupt_of_no_entry entry, takeInterrupt_of_no_entry (same.trans entry)]
    rfl
  | some taken =>
    obtain ⟨i, level⟩ := taken
    have entered := enter_withOutside (c.mapCore ({ · with hold := false })) outside i level
    rw [takeInterrupt_of_entry entry, takeInterrupt_of_entry (same.trans entry)]
    exact Prod.ext entered rfl

/-! ## Execution -/

theorem execute_withOutside (code : Word → Byte) {i : Instruction} (back : i.readsBack = true)
    (atHand : i.combinesAtHand = true) :
    (c.withOutside outside).execute code i = (c.execute code i).withOutside outside := by
  cases i with
  | increment operand | decrement operand =>
    simp only [execute, readBack_withOutside, write_withOutside]
  | decrementJump operand target =>
    simp only [execute, readBack_withOutside, write_withOutside]
    rfl
  | combine op address source =>
    have held := c.read_withOutside outside ((Bool.not_eq_true' source.isDirect).mp atHand)
    simp only [execute, readLatch_withOutside, held, writeDirect_withOutside]
  | jumpClearBit bit target =>
    simp only [execute, readBitLatch_withOutside, writeBit_withOutside]
    split <;> rfl
  | clearBit bit | setBit bit => exact c.writeBit_withOutside outside bit _
  | moveFromCarry bit => exact c.writeBit_withOutside outside bit _
  | complementBit bit => simp only [execute, readBitLatch_withOutside, writeBit_withOutside]
  | _ => cases back

/-! ## One step -/

theorem upcoming_withOutside (code : Word → Byte) :
    (c.withOutside outside).upcoming code = c.upcoming code := by
  unfold upcoming
  rw [takeInterrupt_withOutside]
  rfl

/-- An instruction that writes back what it has read has a meaning, and takes no second port. -/
theorem upcoming_regular {code : Word → Byte} (back : (c.upcoming code).readsBack = true) :
    (c.upcoming code).Regular := by
  refine Fetch.regular_decode _ fun reserved => ?_
  have none : c.upcoming code = .reserved := (Fetch.decode_eq_reserved_iff _).2 reserved
  rw [none] at back
  cases back

theorem step_withOutside {code : Word → Byte} (back : (c.upcoming code).readsBack = true) :
    (c.withOutside outside).step code =
      ((c.step code).1.withOutside outside, (c.step code).2) := by
  have regular := c.upcoming_regular back
  have same := c.upcoming_withOutside outside code
  have executed (w : Word) := execute_withOutside (c.takeInterrupt.1.mapCore (·.jump w)) outside
    code back regular.atHand
  rw [step_of_ne_reserved regular.meaning, step_of_ne_reserved (same ▸ regular.meaning), same,
    takeInterrupt_withOutside]
  exact Prod.ext (congrArg (·.mapCore Core.updateParity) (executed _)) rfl

/-- Two chips that differ at most in what the outside drives onto the pins. -/
structure SameButPins (c c' : Chip ExternalData Peripherals) : Prop where
  core : c'.core = c.core
  external : c'.external = c.external
  latches : c'.registers.latches = c.registers.latches
  timers : c'.registers.timers = c.registers.timers
  plain : c'.registers.plain = c.registers.plain

theorem sameButPins_withOutside : c.SameButPins (c.withOutside outside) :=
  ⟨rfl, rfl, rfl, rfl, rfl⟩

theorem SameButPins.eq_withOutside {c c' : Chip ExternalData Peripherals} (h : c.SameButPins c') :
    c' = c.withOutside c'.registers.outside := by
  obtain ⟨core, external, latches, outside, timers, plain⟩ := c'
  obtain ⟨rfl, rfl, rfl, rfl, rfl⟩ := h
  rfl

/-- **What is read to be written back is read from the latches.**  Two chips that differ in the pins
alone are about to execute the same instruction.  If it increments, decrements or combines a byte,
or sets, clears, complements or moves the carry into a bit, be it to jump on what comes out, then it
is executed on both, and they still differ in the pins alone: they have gone on to the same place
with the same core, RAM, registers, latches and external memory.  In particular the latches are
those of a chip with nothing pulled low. -/
theorem read_modify_write_blind {code : Word → Byte} {c c' : Chip ExternalData Peripherals}
    (same : c.SameButPins c') (back : (c.upcoming code).readsBack = true) :
    c'.upcoming code = c.upcoming code ∧
      (∃ cycles, (c.step code).2 = .ok cycles ∧ (c'.step code).2 = .ok cycles) ∧
      (c.step code).1.SameButPins (c'.step code).1 ∧
      (c'.step code).1.registers.latches =
        ((c'.withOutside (.uniform 0xFF)).step code).1.registers.latches := by
  obtain ⟨outside, rfl⟩ : ∃ outside, c' = c.withOutside outside := ⟨_, same.eq_withOutside⟩
  have upcoming := c.upcoming_withOutside outside code
  have released := (c.withOutside outside).step_withOutside (.uniform 0xFF) (upcoming ▸ back)
  have stepped := c.step_withOutside outside back
  have ran := congrArg Prod.snd (step_of_ne_reserved (c.upcoming_regular back).meaning)
  refine ⟨upcoming, ⟨_, ran, (congrArg Prod.snd stepped).trans ran⟩, ?_, ?_⟩
  · rw [stepped]
    exact sameButPins_withOutside _ _
  · rw [released]
    rfl

/-- A chip whose port 1 counts to the last time, with levels on the pins. -/
def countingChip (outside : PortBytes) : Chip ExternalData Peripherals :=
  ⟨{}, {}, { latches := { PortBytes.uniform 0xFF with p1 := 0x01 }, outside }⟩

/-- Decrements port 1 and jumps unless it is zero. -/
def countPort (a : Word) : Byte := [0xD5, 0x90, 0x10].getD a.toNat 0

/-- With its low pin held low the port reads as zero, but it has not counted past its end. -/
theorem read_modify_write_blind_p1 :
    let c := countingChip (.uniform 0xFF)
    let c' := countingChip { PortBytes.uniform 0xFF with p1 := 0xFE }
    c.SameButPins c' ∧ (c.upcoming countPort).readsBack = true ∧
      c.readSfr Port.p1.address = 0x01 ∧ c'.readSfr Port.p1.address = 0x00 ∧
      (c'.step countPort).1.registers.latches.p1 = 0x00 ∧ (c'.step countPort).1.core.pc = 3 := by
  intro c c'
  have same : c.SameButPins c' := ⟨rfl, rfl, rfl, rfl, rfl⟩
  have back : (c.upcoming countPort).readsBack = true := by decide +kernel
  obtain ⟨-, -, alike, -⟩ := read_modify_write_blind same back
  refine ⟨same, back, by decide +kernel, by decide +kernel, ?_, ?_⟩
  · rw [alike.latches]
    decide +kernel
  · rw [alike.core]
    decide +kernel

end Chip

end Trainer51
