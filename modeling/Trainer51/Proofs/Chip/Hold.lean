import Trainer51.Dsm51
import Trainer51.Proofs.Chip.Buses
import Trainer51.Proofs.Chip.Watched

/-!
# One instruction before an interrupt

A return from an interrupt, and a write to the registers that enable and rank the interrupts, put
off the next interrupt by one instruction.  That a register is written is seen on a watched bus.

    an instruction writes `c.written? i` on the bus, and nothing else           (stored_execute)
    c.Takes i level ↔ there is no hold and it is pending                              (takes_iff)
    c'.core.hold = true ↔ c.Defers code                                           (hold_step_iff)
-/

namespace Trainer51

theorem Interrupt.vector_injective {i j : Interrupt} (h : i.vector = j.vector) : i = j := by
  revert h
  cases i <;> cases j <;> decide

/-! ## What leaves the hold alone -/

namespace Core

theorem hold_set (c : Core) (r : CoreRegister) (v : Byte) : (c.set r v).hold = c.hold := by
  cases r <;> rfl

theorem hold_jumpWhen (c : Core) (condition : Bool) (target : Word) :
    (c.jumpWhen condition target).hold = c.hold := by
  cases condition <;> rfl

theorem hold_accumulate (c : Core) (op : AccumulatorOp) (v : Byte) :
    (c.accumulate op v).hold = c.hold := by
  cases op <;> rfl

theorem hold_rotate (c : Core) (r : Rotation) : (c.rotate r).hold = c.hold := by
  cases r <;> rfl

end Core

namespace Chip

variable {X P : Type}

/-! ## What an instruction leaves on the bus -/

/-- An address of a register that the core does not hold itself. -/
def onBus (a : Byte) : Bool := 0x80 ≤ a && (CoreRegister.ofAddress? a).isNone

section Stored

variable [RegisterBus P]

/-- Exactly the register at the address has been written, if it is on the bus, and a write to the
enable or the priority register has set the hold. -/
structure Stored (written : Option Byte) (before after : Chip X P) : Prop where
  registers : ∃ v, after.registers =
    (written.filter onBus).elim before.registers (RegisterBus.write before.registers · v)
  hold : after.core.hold = true ↔
    before.core.hold = true ∨ written = some Sfr.ie ∨ written = some Sfr.ip

/-- Nothing is stored by what leaves the registers and the hold alone. -/
theorem Stored.nothing {before after : Chip X P} (registers : after.registers = before.registers)
    (hold : after.core.hold = before.core.hold) : Stored none before after :=
  ⟨⟨0, registers⟩, by simp [hold]⟩

/-- What is done to the core besides does not count. -/
theorem Stored.mapCore {written : Option Byte} {before after : Chip X P}
    (h : Stored written before after) {f : Core → Core}
    (hold : (f after.core).hold = after.core.hold) : Stored written before (after.mapCore f) :=
  ⟨h.registers, hold ▸ h.hold⟩

/-- An address off the bus is neither the enable nor the priority register. -/
theorem Stored.off {a : Byte} (off : onBus a = false) {before after : Chip X P}
    (registers : after.registers = before.registers)
    (hold : after.core.hold = before.core.hold) : Stored (some a) before after := by
  have other : ∀ b, onBus b = true → a ≠ b := by
    rintro b on rfl
    rw [on] at off
    cases off
  refine ⟨⟨0, by rw [Option.filter_some, off]; exact registers⟩, ?_⟩
  simp [hold, other Sfr.ie (by decide), other Sfr.ip (by decide)]

theorem stored_writeDirect (c : Chip X P) (a v : Byte) :
    Stored (some a) c (c.writeDirect a v) := by
  unfold writeDirect
  by_cases ram : a < 0x80
  · rw [if_pos ram]
    exact .off (by simp [onBus, UInt8.not_le.2 ram]) rfl rfl
  · rw [if_neg ram]
    unfold writeSfr
    cases held : CoreRegister.ofAddress? a with
    | some r => exact .off (by simp [onBus, held]) rfl (Core.hold_set _ _ _)
    | none =>
      have on : onBus a = true := by
        simp [onBus, held, UInt8.not_lt.1 ram]
      refine ⟨⟨v, by rw [Option.filter_some, on]; rfl⟩, ?_⟩
      by_cases control : a = Sfr.ie ∨ a = Sfr.ip <;> simp [control]

theorem stored_write (c : Chip X P) (operand : Operand) (v : Byte) :
    Stored operand.direct? c (c.write operand v) := by
  cases operand with
  | direct address => exact c.stored_writeDirect address v
  | _ => exact .nothing rfl rfl

theorem stored_writeBit (c : Chip X P) (bit : Byte) (on : Bool) :
    Stored (some (bitByte bit)) c (c.writeBit bit on) :=
  c.stored_writeDirect _ _

variable [ExternalBus X]

theorem stored_execute (code : Word → Byte) (c : Chip X P) {i : Instruction}
    (h : i ≠ .returnFromInterrupt) : Stored (c.written? i) c (c.execute code i) := by
  cases i with
  | jumpClearBit bit target =>
    show Stored (if c.readBitLatch bit then some (bitByte bit) else none) c
      (if c.readBitLatch bit then (c.writeBit bit false).mapCore (·.jump target) else c)
    split
    · exact (c.stored_writeBit bit false).mapCore rfl
    · exact .nothing rfl rfl
  | decrementJump operand target =>
    exact (c.stored_write operand _).mapCore (Core.hold_jumpWhen _ _ _)
  | combine op address source => exact c.stored_writeDirect address _
  | increment operand | decrement operand => exact c.stored_write operand _
  | move target source => exact c.stored_write target _
  | exchange operand =>
    exact (c.stored_write operand c.core.a).mapCore (f := ({ · with a := c.read operand })) rfl
  | pop address =>
    have stored := stored_writeDirect { c with core := c.core.pop.2 } address c.core.pop.1
    exact ⟨stored.registers, stored.hold⟩
  | moveFromCarry bit | clearBit bit | setBit bit | complementBit bit =>
    exact c.stored_writeBit bit _
  | jumpWhen condition target => exact .nothing rfl (Core.hold_jumpWhen _ _ _)
  | jumpIfBit set bit target => exact .nothing rfl (Core.hold_jumpWhen _ _ _)
  | compareJump left right target => exact .nothing rfl (Core.hold_jumpWhen _ _ _)
  | accumulate op source => exact .nothing rfl (Core.hold_accumulate _ _ _)
  | rotate rotation => exact .nothing rfl (Core.hold_rotate _ _)
  | returnFromInterrupt => exact absurd rfl h
  | _ => exact .nothing rfl rfl

end Stored

/-! ## Interrupts -/

section Interrupts

variable [RegisterBus P]

/-- The hold lasts for one step. -/
theorem hold_takeInterrupt (c : Chip X P) : c.takeInterrupt.1.core.hold = false := by
  cases entry : c.entry? with
  | none =>
    rw [takeInterrupt_of_no_entry entry]
    rfl
  | some taken =>
    rw [takeInterrupt_of_entry entry, core_enter]
    rfl

/-- The next step takes an interrupt: it begins a service at the vector of the source, at a level
that had none. -/
structure Takes (c : Chip X P) (i : Interrupt) (level : Level) : Prop where
  free : c.core.inService.get level = false
  begun : c.takeInterrupt.1.core.flow = ⟨i.vector, c.core.inService.enter level⟩

theorem takes_iff_entry (c : Chip X P) (i : Interrupt) (level : Level) :
    c.Takes i level ↔ c.entry? = some (i, level) := by
  have taken := c.flow_takeInterrupt
  constructor
  · rintro ⟨free, begun⟩
    rw [begun] at taken
    -- the level is in service afterwards, so a service has begun, and it is this one
    have busy : (c.core.inService.enter level).get level = true := by
      rw [InService.get_enter, if_pos rfl]
    cases entry : c.entry? with
    | none =>
      rw [entry] at taken
      have same : c.core.inService.enter level = c.core.inService := congrArg Flow.inService taken
      rw [same, free] at busy
      cases busy
    | some first =>
      obtain ⟨j, l⟩ := first
      rw [entry] at taken
      have vector : i.vector = j.vector := congrArg Flow.pc taken
      have entered : c.core.inService.enter level = c.core.inService.enter l :=
        congrArg Flow.inService taken
      rw [entered, InService.get_enter] at busy
      have same : l = level := by
        by_cases same : l = level
        · exact same
        · rw [if_neg same, free] at busy
          cases busy
      rw [Interrupt.vector_injective vector, same]
  · intro entry
    rw [entry] at taken
    exact ⟨InService.get_of_admitted (admitted_of_entry entry) level (Nat.le_refl _), taken⟩

/-- An interrupt is taken exactly if it is pending and no instruction has to run first. -/
theorem takes_iff (c : Chip X P) (i : Interrupt) (level : Level) :
    c.Takes i level ↔ c.core.hold = false ∧ c.pending? = some (i, level) := by
  rw [takes_iff_entry]
  unfold entry?
  cases c.core.hold <;> simp

end Interrupts

/-! ## Steps -/

variable [RegisterBus P] [ExternalBus X] {code : Word → Byte} {c c' : Chip X P} {cycles : Nat}

/-- The next step puts off the interrupt after it: its instruction returns from one, or the enable
or the priority register is written. -/
def Defers (code : Word → Byte) (c : Chip X P) : Prop :=
  c.upcoming code = .returnFromInterrupt ∨ Sfr.ie ∈ c.writes code ∨ Sfr.ip ∈ c.writes code

theorem hold_step_written (h : c.step code = (c', .ok cycles)) :
    c'.core.hold = true ↔ c.upcoming code = .returnFromInterrupt ∨
      c.takeInterrupt.1.written? (c.upcoming code) = some Sfr.ie ∨
      c.takeInterrupt.1.written? (c.upcoming code) = some Sfr.ip := by
  obtain ⟨-, -, next, rfl⟩ := step_eq_ok h
  by_cases returns : c.upcoming code = .returnFromInterrupt
  · rw [returns]
    exact iff_of_true rfl (.inl rfl)
  · have stored := stored_execute code (c.takeInterrupt.1.mapCore (·.jump next)) returns
    rw [written?_jump] at stored
    have before : (c.takeInterrupt.1.mapCore (·.jump next)).core.hold = false :=
      c.hold_takeInterrupt
    refine stored.hold.trans ?_
    simp [before, returns]

/-! ## The record of a watched bus -/

omit [ExternalBus X] in
/-- The entry of an interrupt writes at most the register with the requests. -/
theorem mem_written_takeInterrupt (c : Chip X (Watched P)) {a : Byte} (free : a ≠ Sfr.tcon) :
    a ∈ c.takeInterrupt.1.registers.written ↔ a ∈ c.registers.written := by
  obtain same | ⟨i, n, -, written⟩ := c.registers_takeInterrupt
  · rw [same]
  · rw [written]
    show a ∈ c.registers.written ++ [Sfr.tcon] ↔ _
    simp [free]

omit [ExternalBus X] in
theorem Stored.mem_written {written : Option Byte} {before after : Chip X (Watched P)}
    (h : Stored written before after) {a : Byte} (on : onBus a = true) :
    a ∈ after.registers.written ↔ a ∈ before.registers.written ∨ written = some a := by
  obtain ⟨v, registers⟩ := h.registers
  rw [registers]
  cases written with
  | none => simp
  | some b =>
    by_cases wired : onBus b = true
    · rw [Option.filter_some, if_pos wired]
      show a ∈ before.registers.written ++ [b] ↔ _
      simp [eq_comm]
    · rw [Option.filter_some, if_neg wired]
      have other : b ≠ a := fun same => wired (same ▸ on)
      simp [other]

theorem mem_written_execute (c : Chip X (Watched P)) (i : Instruction) {a : Byte}
    (on : onBus a = true) :
    a ∈ (c.execute code i).registers.written ↔
      a ∈ c.registers.written ∨ c.written? i = some a := by
  by_cases returns : i = .returnFromInterrupt
  · subst returns
    exact ⟨.inl, fun h => h.elim id nofun⟩
  · exact (stored_execute code c returns).mem_written on

/-- Of the registers that no interrupt entry writes, a step writes the one that its instruction
writes. -/
theorem mem_writes_iff (h : c.step code = (c', .ok cycles)) {a : Byte} (on : onBus a = true)
    (free : a ≠ Sfr.tcon) :
    a ∈ c.writes code ↔ c.takeInterrupt.1.written? (c.upcoming code) = some a := by
  have watched : ((c.watch.step code).1.unwatch, (c.watch.step code).2) = (c', .ok cycles) :=
    (unwatch_step code c.watch).trans h
  have result : (c.watch.step code).2 = .ok cycles := congrArg Prod.snd watched
  have taken : c.watch.takeInterrupt.1.unwatch = c.takeInterrupt.1 :=
    congrArg Prod.fst c.watch.unwatch_takeInterrupt
  have upcoming : c.watch.upcoming code = c.upcoming code := by
    unfold upcoming
    rw [← taken]
    rfl
  obtain ⟨-, -, next, after⟩ := step_eq_ok (Prod.ext rfl result)
  have record : c.writes code = ((c.watch.takeInterrupt.1.mapCore (·.jump next)).execute code
      (c.watch.upcoming code)).registers.written :=
    Eq.trans (congrArg (fun d : Chip X (Watched P) => d.registers.written) after) rfl
  rw [record, upcoming, mem_written_execute _ _ on, written?_jump, ← written?_unwatch, taken]
  have unwritten : a ∉ c.watch.takeInterrupt.1.registers.written := by
    rw [mem_written_takeInterrupt _ free]
    exact List.not_mem_nil
  exact or_iff_right unwritten

/-- A step that executes an instruction sets the hold exactly if the instruction puts interrupts
off. -/
theorem hold_step_iff (h : c.step code = (c', .ok cycles)) :
    c'.core.hold = true ↔ c.Defers code := by
  unfold Defers
  rw [mem_writes_iff h (by decide) (by decide), mem_writes_iff h (by decide) (by decide)]
  exact hold_step_written h

/-! ## Consecutive steps -/

/-- Whatever has happened to memories and registers since a step, the next one takes what is pending
unless the step has put it off. -/
theorem takes_next (h : c.step code = (c', .ok cycles)) {next : Chip X P}
    (same : next.core = c'.core) (i : Interrupt) (level : Level) :
    next.Takes i level ↔ ¬ c.Defers code ∧ next.pending? = some (i, level) := by
  rw [takes_iff, same, ← hold_step_iff h, Bool.not_eq_true]

omit [ExternalBus X] in
/-- With a hold the instruction at the program counter comes first. -/
theorem upcoming_of_hold (h : c.core.hold = true) (code : Word → Byte) :
    c.upcoming code = (Fetch.ofCode code c.core.pc).decode := by
  have entry : c.entry? = none := by
    unfold entry?
    rw [if_pos h]
  unfold upcoming
  rw [takeInterrupt_of_no_entry entry]
  rfl

/-- **One instruction is executed before an interrupt is taken.**  A step leaves the hold set exactly
if its instruction has returned from an interrupt or the enable or the priority register has been
written over the bus, which only an instruction does that names the register as its destination.
Whatever happens to memories and registers in between, the next step takes an interrupt exactly if
it is pending and there is no hold: so after such an instruction the one at the program counter is
executed, and then what is pending is taken, unless that instruction puts it off in turn. -/
theorem one_instruction_first (h : c.step code = (c', .ok cycles)) :
    (c'.core.hold = true ↔ c.Defers code) ∧
      (∀ a, a = Sfr.ie ∨ a = Sfr.ip →
        (a ∈ c.writes code ↔ c.takeInterrupt.1.written? (c.upcoming code) = some a)) ∧
      ∀ next : Chip X P, next.core = c'.core →
        (∀ i level, next.Takes i level ↔
          c'.core.hold = false ∧ next.pending? = some (i, level)) ∧
        (c.Defers code → ∀ code' d cycles', next.step code' = (d, .ok cycles') →
          next.upcoming code' = (Fetch.ofCode code' next.core.pc).decode ∧
          ∀ later : Chip X P, later.core = d.core → ∀ i level,
            later.Takes i level ↔ ¬ next.Defers code' ∧ later.pending? = some (i, level)) := by
  have held := hold_step_iff h
  refine ⟨held, ?_, fun next same => ⟨fun i level => ?_, ?_⟩⟩
  · rintro a (rfl | rfl)
    · exact mem_writes_iff h (by decide) (by decide)
    · exact mem_writes_iff h (by decide) (by decide)
  · rw [takes_iff, same]
  · intro defers code' d cycles' second
    have hold : next.core.hold = true := same ▸ held.2 defers
    exact ⟨upcoming_of_hold hold code', fun later same' i level => takes_next second same' i level⟩

/-- `MOV IE,#82h`, and `NOP` from there on. -/
def enablingCode (a : Word) : Byte := [0x75, 0xA8, 0x82].getD a.toNat 0

/-- A chip whose timer 0 asks for a service. -/
def asking : Chip Unit Peripherals := ⟨{}, (), Peripherals.write {} Sfr.tcon 0x20⟩

/-- Switching interrupts on lets one `NOP` run before the service that is asked for begins. -/
theorem one_instruction_first_enabling :
    let next := (asking.step enablingCode).1
    let later := (next.step enablingCode).1
    asking.step enablingCode = (next, .ok 2) ∧ next.step enablingCode = (later, .ok 1) ∧
      next.pending? = some (.timer0, .low) ∧ ¬ next.Takes .timer0 .low ∧
      later.Takes .timer0 .low := by
  intro next later
  have two : (asking.step enablingCode).2 = .ok 2 := rfl
  have one : ((asking.step enablingCode).1.step enablingCode).2 = .ok 1 := rfl
  have first : asking.step enablingCode = (next, .ok 2) := Prod.ext rfl two
  have second : next.step enablingCode = (later, .ok 1) := Prod.ext rfl one
  have pending : next.pending? = some (.timer0, .low) := by decide
  have still : later.pending? = some (.timer0, .low) := by decide
  have hold : next.core.hold = true := by decide
  have free : later.core.hold = false := by decide
  obtain ⟨held, -, after⟩ := one_instruction_first first
  obtain ⟨takes, once⟩ := after next rfl
  obtain ⟨-, resumes⟩ := once (held.1 hold) enablingCode later 1 second
  refine ⟨first, second, pending, fun taken => ?_, ?_⟩
  · have unheld := ((takes .timer0 .low).1 taken).1
    rw [hold] at unheld
    cases unheld
  · refine (resumes later rfl .timer0 .low).2 ⟨fun defers => ?_, still⟩
    have held := (hold_step_iff second).2 defers
    rw [free] at held
    cases held

end Chip

end Trainer51
