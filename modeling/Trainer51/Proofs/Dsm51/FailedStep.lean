import Trainer51.Proofs.Chip.Written
import Trainer51.Proofs.Dsm51.Edges
import Trainer51.Proofs.Instruction.Opcodes

/-!
# What a step that fails leaves behind

A step fails when it has fetched the opcode without a meaning.  By then the hold is spent, and an
interrupt may have been taken; nothing has been executed, and the board has not caught up.

    c.takeInterrupt.1.core = c.core.begin c.entry?                          (core_takeInterrupt)
    c.step code = (c', .error e) ↔ the opcode at c.origin is A5h, and only the entry has happened
                                                                            (step_eq_error_iff)
    the same of the board, field by field                                   (failing_step_leaves)
-/

namespace Trainer51

/-- What a core does before it fetches an instruction: the hold ends, and if an interrupt is taken,
the program counter is pushed, low byte first, and its service begins. -/
def Core.begin (c : Core) : Option (Interrupt × Level) → Core
  | none => { c with hold := false }
  | some (i, level) =>
    { c with
      hold := false
      ram := (c.ram.write (c.sp + 1) c.pc.lo).write (c.sp + 2) c.pc.hi
      sp := c.sp + 2
      pc := i.vector
      inService := c.inService.enter level }

namespace Chip

variable {X P : Type} [RegisterBus P]

theorem core_takeInterrupt (c : Chip X P) : c.takeInterrupt.1.core = c.core.begin c.entry? := by
  cases h : c.entry? with
  | none =>
    rw [takeInterrupt_of_no_entry h]
    rfl
  | some entry =>
    obtain ⟨i, level⟩ := entry
    have twice : c.core.sp + 1 + 1 = c.core.sp + 2 := UInt8.add_assoc _ 1 1
    rw [takeInterrupt_of_entry h, core_enter]
    unfold Core.begin
    dsimp only
    rw [← twice]
    rfl

variable {code : Word → Byte} {c : Chip X P}

theorem upcoming_eq_reserved_iff : c.upcoming code = .reserved ↔ code c.origin = 0xA5 := by
  rw [← c.pc_takeInterrupt_eq_origin]
  exact Fetch.decode_eq_reserved_iff _

variable [ExternalBus X]

/-- A step fails exactly at the opcode without a meaning, and then it has only taken an interrupt,
if there was one to take. -/
theorem step_eq_error_iff {c' : Chip X P} {e : IllegalOpcode} :
    c.step code = (c', .error e) ↔
      code c.origin = 0xA5 ∧ e = ⟨c.origin, 0xA5⟩ ∧ c' = c.takeInterrupt.1 := by
  rw [← upcoming_eq_reserved_iff]
  by_cases reserved : c.upcoming code = .reserved
  · have opcode := upcoming_eq_reserved_iff.1 reserved
    rw [step_of_reserved reserved, c.pc_takeInterrupt_eq_origin, opcode]
    constructor
    · intro failed
      cases failed
      exact ⟨reserved, rfl, rfl⟩
    · rintro ⟨-, rfl, rfl⟩
      rfl
  · rw [step_of_ne_reserved reserved]
    exact iff_of_false nofun fun failed => reserved failed.1

end Chip

/-! ## The board -/

/-- What is done to TCON before the instruction of a step: if an interrupt is taken, the request
that it acknowledges is cleared. -/
def Interrupt.cleared (tcon : Byte) (taken : Option (Interrupt × Level)) : Byte :=
  (taken.bind fun entry => entry.1.acknowledged? tcon).elim tcon (tcon.setBit · false)

theorem Timers.acknowledge_eq (t : Timers) (i : Interrupt) (level : Level) :
    t.acknowledge i = { t with tcon := Interrupt.cleared t.tcon (some (i, level)) } := by
  show _ = { t with tcon := (i.acknowledged? t.tcon).elim t.tcon (t.tcon.setBit · false) }
  unfold acknowledge
  cases i.acknowledged? t.tcon <;> rfl

/-- Before its instruction a step changes the core and TCON. -/
theorem Chip.takeInterrupt_eq (c : Chip ExternalData Peripherals) :
    c.takeInterrupt.1 = ⟨c.core.begin c.entry?, c.external, { c.registers with
      timers := { c.registers.timers with
        tcon := Interrupt.cleared c.registers.timers.tcon c.entry? } }⟩ := by
  have registers := c.takeInterrupt_registers
  rw [c.taken?_eq] at registers
  rw [← c.core_takeInterrupt, ← c.external_takeInterrupt]
  cases entry : c.entry? with
  | none =>
    rw [entry] at registers
    exact congrArg (Chip.mk _ _) registers
  | some taken =>
    rw [entry] at registers
    rw [← c.registers.timers.acknowledge_eq]
    exact congrArg (Chip.mk _ _) registers

namespace Dsm51

/-- Two boards that differ at most by what is done before the instruction of a step. -/
structure OnlyBegins (d d' : Dsm51) : Prop where
  core : d'.core = d.core.begin d.chip.entry?
  tcon : d'.peripherals.timers.tcon = Interrupt.cleared d.peripherals.timers.tcon d.chip.entry?
  tmod : d'.peripherals.timers.tmod = d.peripherals.timers.tmod
  counter0 : d'.peripherals.timers.counter0 = d.peripherals.timers.counter0
  counter1 : d'.peripherals.timers.counter1 = d.peripherals.timers.counter1
  latches : d'.peripherals.latches = d.peripherals.latches
  outside : d'.peripherals.outside = d.peripherals.outside
  plain : d'.peripherals.plain = d.peripherals.plain
  external : d'.external = d.external
  code : d'.code = d.code
  display : d'.display = d.display
  format : d'.format = d.format
  lastP3 : d'.lastP3 = d.lastP3
  cycles : d'.cycles = d.cycles

theorem onlyBegins_takeInterrupt (d : Dsm51) :
    d.OnlyBegins { d with chip := d.chip.takeInterrupt.1 } := by
  rw [Chip.takeInterrupt_eq]
  constructor <;> rfl

/-- What is done before the instruction leaves no choice. -/
theorem OnlyBegins.eq {d d' : Dsm51} (h : d.OnlyBegins d') :
    d' = { d with chip := d.chip.takeInterrupt.1 } := by
  rw [Chip.takeInterrupt_eq]
  obtain ⟨⟨core, external, latches, outside, ⟨tcon, tmod, counter0, counter1⟩, plain⟩, code,
    display, format, lastP3, cycles⟩ := d'
  obtain ⟨rfl, rfl, rfl, rfl, rfl, rfl, rfl, rfl, rfl, rfl, rfl, rfl, rfl, rfl⟩ := h
  rfl

theorem step_eq_error_iff {d d' : Dsm51} {e : IllegalOpcode} :
    d.step = (d', .error e) ↔
      ∃ chip, d.chip.step d.code.read = (chip, .error e) ∧ d' = { d with chip } := by
  constructor
  · intro h
    cases hc : d.chip.step d.code.read with
    | mk chip result =>
      cases result with
      | ok cycles =>
        rw [step_of_ok hc] at h
        cases h
      | error e' =>
        rw [step_of_error hc] at h
        cases h
        exact ⟨chip, rfl, rfl⟩
  · rintro ⟨chip, hc, rfl⟩
    exact step_of_error hc

/-- **A step fails exactly at the opcode without a meaning**, which it names with its address, and
leaves everything but what it has done before: the hold is spent, and if an interrupt was taken, the
old program counter is on the stack, execution stands at the vector, the level is in service, and
the request that the interrupt acknowledges is cleared. -/
theorem failing_step_leaves (d : Dsm51) :
    ((∃ d' e, d.step = (d', .error e)) ↔ d.code.read d.chip.origin = 0xA5) ∧
      ∀ d' e, d.step = (d', .error e) ↔
        d.code.read d.chip.origin = 0xA5 ∧ e = ⟨d.chip.origin, 0xA5⟩ ∧ d.OnlyBegins d' := by
  have failing : ∀ d' e, d.step = (d', .error e) ↔
      d.code.read d.chip.origin = 0xA5 ∧ e = ⟨d.chip.origin, 0xA5⟩ ∧ d.OnlyBegins d' := by
    intro d' e
    rw [step_eq_error_iff]
    constructor
    · rintro ⟨chip, failed, rfl⟩
      obtain ⟨opcode, error, rfl⟩ := Chip.step_eq_error_iff.1 failed
      exact ⟨opcode, error, d.onlyBegins_takeInterrupt⟩
    · rintro ⟨opcode, error, begins⟩
      exact ⟨d.chip.takeInterrupt.1, Chip.step_eq_error_iff.2 ⟨opcode, error, rfl⟩,
        begins.eq⟩
  refine ⟨⟨?_, fun opcode => ?_⟩, failing⟩
  · rintro ⟨d', e, failed⟩
    exact ((failing d' e).1 failed).1
  · exact ⟨_, _, (failing _ _).2 ⟨opcode, rfl, d.onlyBegins_takeInterrupt⟩⟩

end Dsm51

end Trainer51
