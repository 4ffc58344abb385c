import Trainer51.Dsm51

/-!
# One step of the board

A step executes an instruction and lets the board catch up, or fails on a reserved opcode.  A step
that fails has only taken a pending interrupt, if there was one.

    Machine.step d = (d', result) → executed ∨ failed                        (step_cases)
    a step that fails leaves the program counter where execution met the reserved opcode:
      at the vector of the interrupt it took, or where it was                (pc_of_step_error)
    a step reads program memory and never writes it                          (step_eq_stepOn)
-/

namespace Trainer51

/-! ## The chip -/

namespace Chip

variable {X P : Type} [RegisterBus P]

/-- The interrupt that the next step takes before it executes an instruction. -/
def taken? (c : Chip X P) : Option Interrupt :=
  if c.core.hold then none else c.pending?.map (·.1)

theorem pc_takeInterrupt (c : Chip X P) :
    c.takeInterrupt.1.core.pc = (c.taken?.map Interrupt.vector).getD c.core.pc := by
  unfold takeInterrupt taken?
  split
  · rfl
  · cases c.pending? with
    | none => rfl
    | some p => rfl

variable [ExternalBus X]

/-- Nothing is executed at a reserved opcode. -/
theorem executeNext_error {code : Word → Byte} {c c' : Chip X P} {e : IllegalOpcode}
    (h : c.executeNext code = (c', .error e)) : c' = c := by
  unfold executeNext at h
  dsimp only at h
  split at h
  · cases h
    rfl
  · cases h

theorem step_error {code : Word → Byte} {c c' : Chip X P} {e : IllegalOpcode}
    (h : c.step code = (c', .error e)) : c' = c.takeInterrupt.1 := by
  unfold step at h
  cases hx : c.takeInterrupt.1.executeNext code with
  | mk c'' result =>
    simp only [hx] at h
    cases result with
    | ok cycles => cases h
    | error e' =>
      cases h
      exact executeNext_error hx

end Chip

/-! ## The board -/

namespace Dsm51

/-- Where the interrupt routine starts that the next step enters. -/
def vector? (d : Dsm51) : Option Word := d.chip.taken?.map Interrupt.vector

/-- A step executes an instruction or fails. -/
theorem step_cases {d d' : Dsm51} {result : Except MachineError Unit}
    (h : Machine.step d = (d', result)) :
    (∃ chip cycles, d.chip.step d.code.read = (chip, .ok cycles) ∧
      d' = ({ d with chip } : Dsm51).settle cycles ∧ result = .ok ()) ∨
    (∃ chip e, d.chip.step d.code.read = (chip, .error e) ∧
      d' = { d with chip } ∧ result = .error (.ofOpcode e)) := by
  replace h : d.stepOnce = (d', result) := h
  unfold stepOnce step at h
  cases hx : d.chip.step d.code.read with
  | mk chip outcome =>
    simp only [hx] at h
    cases outcome with
    | ok cycles =>
      cases h
      exact .inl ⟨chip, cycles, rfl, rfl, rfl⟩
    | error e =>
      cases h
      exact .inr ⟨chip, e, rfl, rfl, rfl⟩

theorem pc_of_step_error {d d' : Dsm51} {e : MachineError}
    (h : Machine.step d = (d', .error e)) : Machine.pc d' = d.vector?.getD (Machine.pc d) := by
  obtain ⟨_, _, _, _, hr⟩ | ⟨chip, e', hc, rfl, _⟩ := step_cases h
  · cases hr
  · show chip.core.pc = _
    rw [Chip.step_error hc]
    exact d.chip.pc_takeInterrupt

/-- Only the display changes. -/
theorem latchDisplay_eq (d : Dsm51) : ∃ display, d.latchDisplay = { d with display } := by
  unfold latchDisplay
  split
  · exact ⟨_, rfl⟩
  · exact ⟨d.display, rfl⟩

/-! ## Program memory -/

theorem latchDisplay_withCode (d : Dsm51) (code : Store64K Byte) :
    ({ d with code } : Dsm51).latchDisplay = { d.latchDisplay with code } := by
  have same : ({ d with code } : Dsm51).displayEnabled = d.displayEnabled := rfl
  unfold latchDisplay
  rw [same]
  cases d.displayEnabled with
  | false => rfl
  | true => rfl

theorem settle_withCode (d : Dsm51) (code : Store64K Byte) (cycles : Nat) :
    ({ d with code } : Dsm51).settle cycles = { d.settle cycles with code } := by
  let p := d.peripherals
  let q := { p with timers := p.timers.tick (d.timerInputs cycles) }
  have latched := latchDisplay_withCode (d.setPeripherals (q.sampleRequests d.fallen)) code
  exact congrArg (fun b : Dsm51 =>
    { b with lastP3 := d.peripherals.pins .p3, cycles := d.cycles + cycles }) latched

/-- A step of a board that takes its code from elsewhere, and how it failed. -/
def stepOn (code : Word → Byte) (d : Dsm51) : Dsm51 × Option MachineError :=
  match d.chip.step code with
  | (chip, .ok cycles) => ({ d with chip }.settle cycles, none)
  | (chip, .error e) => ({ d with chip }, some (.ofOpcode e))

/-- A board executes its program memory and keeps it. -/
theorem step_eq_stepOn (d : Dsm51) (code : Store64K Byte) :
    Machine.step { d with code } =
      ({ (d.stepOn code.read).1 with code },
        (d.stepOn code.read).2.elim (.ok ()) .error) := by
  cases h : Machine.step { d with code } with
  | mk d' result =>
    unfold stepOn
    obtain ⟨chip, cycles, hc, rfl, rfl⟩ | ⟨chip, e, hc, rfl, rfl⟩ := step_cases h
    · replace hc : d.chip.step code.read = (chip, .ok cycles) := hc
      rw [hc]
      exact Prod.ext (settle_withCode { d with chip } code cycles) rfl
    · replace hc : d.chip.step code.read = (chip, .error e) := hc
      rw [hc]
      rfl

end Dsm51

end Trainer51
