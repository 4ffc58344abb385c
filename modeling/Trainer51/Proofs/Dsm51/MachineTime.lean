import Trainer51.Proofs.Chip.Written
import Trainer51.Proofs.Dsm51.Edges

/-!
# A timer tells the machine time

Timer 0 in its sixteen-bit mode, running, not gated and not counting edges, counts the machine
cycles as the board does.  A program changes that only by writing one of the four registers that
timer 0 depends on; no interrupt entry, no look at the pins and no other timer does.

    t.Tells time → (t.tick i).Tells (time + i.cycles)                                  (Tells.tick)
    interrupt entries, samples and other writes are nothing to the time
                                              (Tells.acknowledge, Tells.sampleRequest, tells_wrote)
    a step makes it later by the cycles that it reports                                (tells_step)
    over any number of steps                                                     (timer_keeps_time)
-/

namespace Trainer51

namespace Timers

/-- Timer 0 runs through sixteen bits with the machine cycles. -/
structure KeepsTime (t : Timers) : Prop where
  run : t.control Tcon.tr0 = true
  mode : t.mode0 = .bits16
  countsCycles : t.tmod.bit TimerUnit.timer0.edgeBit = false
  ungated : t.tmod.bit TimerUnit.timer0.gate = false

/-- Timer 0 keeps the time and it is `time`, but for whole rounds. -/
structure Tells (t : Timers) (time : Nat) : Prop extends t.KeepsTime where
  value : t.counter0.value16 = time % 65536

theorem KeepsTime.tells {t : Timers} (h : t.KeepsTime) : t.Tells t.counter0.value16 :=
  ⟨h, (Nat.mod_eq_of_lt t.counter0.value16_lt).symm⟩

variable {t t' : Timers} {time : Nat}

/-- The time depends on three registers and the run bit. -/
theorem Tells.congr (h : t.Tells time) (run : t'.control Tcon.tr0 = t.control Tcon.tr0)
    (tmod : t'.tmod = t.tmod) (counter : t'.counter0 = t.counter0) : t'.Tells time where
  run := run.trans h.run
  mode := by
    unfold mode0
    rw [tmod]
    exact h.mode
  countsCycles := tmod ▸ h.countsCycles
  ungated := tmod ▸ h.ungated
  value := counter ▸ h.value

theorem Tells.setControl (h : t.Tells time) {n : Nat} (other : Tcon.tr0 % 8 ≠ n % 8) (on : Bool) :
    (t.setControl n on).Tells time :=
  h.congr (by rw [control_setControl, if_neg other]) rfl rfl

theorem Tells.raise (h : t.Tells time) {n : Nat} (other : Tcon.tr0 % 8 ≠ n % 8) (on : Bool) :
    (t.raise n on).Tells time := by
  unfold Timers.raise
  split
  · exact h.setControl other true
  · exact h

/-- Entering an interrupt clears at most its request. -/
theorem Tells.acknowledge (h : t.Tells time) (i : Interrupt) : (t.acknowledge i).Tells time := by
  unfold Timers.acknowledge
  split
  · next n cleared =>
    have other : Tcon.tr0 % 8 ≠ n % 8 := by
      obtain rfl | rfl | ⟨line, rfl, -⟩ := Interrupt.acknowledged_cases cleared
      · decide
      · decide
      · cases line <;> decide
    exact h.setControl other false
  · exact h

theorem Tells.sampleRequest (h : t.Tells time) (pins falling : Byte) {pin request edge : Nat}
    (other : Tcon.tr0 % 8 ≠ request % 8) :
    (Peripherals.sampleRequest t pins falling pin request edge).Tells time := by
  unfold Peripherals.sampleRequest
  split
  · exact h.raise other _
  · exact h.setControl other _

theorem KeepsTime.whole (h : t.KeepsTime) : t.mode0 ≠ .split := by
  rw [h.mode]
  decide

/-- A timer that keeps the time hears every machine cycle. -/
theorem KeepsTime.heard (h : t.KeepsTime) (i : TimerInputs) :
    TimerUnit.timer0.heard t i = i.cycles := by
  have running : ((TimerUnit.timer0.view t).run &&
      (!(TimerUnit.timer0.view t).gated || (TimerUnit.timer0.inputs i).level)) = true := by
    rw [show (TimerUnit.timer0.view t).run = true from h.run,
      show (TimerUnit.timer0.view t).gated = false from h.ungated]
    rfl
  have cycles : ¬(TimerUnit.timer0.view t).countsEdges := Bool.eq_false_iff.1 h.countsCycles
  unfold TimerUnit.heard LoneTimer.heard
  rw [if_pos running, if_neg cycles]
  rfl

theorem KeepsTime.counter_tick (h : t.KeepsTime) (i : TimerInputs) :
    (t.tick i).counter0 = (t.counter0.advance .bits16 i.cycles).1 := by
  have ticked := congrArg LoneTimer.counter (view_tick h.whole .timer0 i)
  calc (t.tick i).counter0
      = (t.counter0.advance t.mode0 (TimerUnit.timer0.heard t i)).1 := ticked
    _ = _ := by rw [h.mode, h.heard]

/-- A tick makes it later by the machine cycles of the instruction. -/
theorem Tells.tick (h : t.Tells time) (i : TimerInputs) : (t.tick i).Tells (time + i.cycles) where
  run := by
    rw [t.control_tick i fun unit => by cases unit <;> decide]
    exact h.run
  mode := (mode0_tick h.whole i).trans h.mode
  countsCycles := tmod_tick h.whole i ▸ h.countsCycles
  ungated := tmod_tick h.whole i ▸ h.ungated
  value := by
    have counted := Counter.advance_wraps Counter.value16_lt Counter.increment_bits16 i.cycles
      t.counter0
    rw [h.counter_tick, counted.1, h.value, Nat.mod_add_mod]

end Timers

/-! ## Writes -/

/-- The registers that the time of timer 0 depends on. -/
def TimerRegister.ofTime : List TimerRegister := [tcon, tmod, tl0, th0]

/-- What has been written is none of the registers that the time depends on. -/
def LeavesTime (written : Option Byte) : Prop :=
  ∀ r ∈ TimerRegister.ofTime, written ≠ some r.address

instance (written : Option Byte) : Decidable (LeavesTime written) :=
  inferInstanceAs (Decidable (∀ r ∈ TimerRegister.ofTime, _))

theorem Timers.Tells.write {t : Timers} {time : Nat} (h : t.Tells time) {r : TimerRegister}
    (other : r ∉ TimerRegister.ofTime) (v : Byte) : (t.write r v).Tells time := by
  cases r with
  | tl1 | th1 => exact h.congr rfl rfl rfl
  | tcon | tmod | tl0 | th0 => exact absurd (by decide) other

theorem Peripherals.tells_write {p : Peripherals} {time : Nat} (h : p.timers.Tells time) {a : Byte}
    (other : LeavesTime (some a)) (v : Byte) : (p.write a v).timers.Tells time := by
  unfold Peripherals.write
  split
  · exact h
  · split
    · next r found =>
      refine h.write (fun mem => other r mem ?_) v
      rw [TimerRegister.address_of_ofAddress? found]
    · exact h

theorem Peripherals.tells_wrote {p p' : Peripherals} {time : Nat} (h : p.timers.Tells time)
    {written : Option Byte} (wrote : Wrote written p p') (other : LeavesTime written) :
    p'.timers.Tells time := by
  obtain rfl | ⟨a, v, rfl, rfl⟩ := wrote
  · exact h
  · exact tells_write h other v

theorem Peripherals.tells_sampleRequests {p : Peripherals} {time : Nat} (h : p.timers.Tells time)
    (falling : Byte) : (p.sampleRequests falling).timers.Tells time :=
  (h.sampleRequest _ _ (by decide)).sampleRequest _ _ (by decide)

theorem Chip.tells_takeInterrupt {c : Chip ExternalData Peripherals} {time : Nat}
    (h : c.registers.timers.Tells time) : c.takeInterrupt.1.registers.timers.Tells time := by
  rw [c.takeInterrupt_registers]
  cases c.taken? with
  | none => exact h
  | some i => exact h.acknowledge i

/-! ## Steps -/

/-- What a step has executed. -/
structure Executed where
  instruction : Instruction
  /-- The interrupt that the step entered before. -/
  entered? : Option Interrupt
  /-- The direct address that the instruction has written. -/
  written? : Option Byte
  /-- The machine cycles that the step reported. -/
  cycles : Nat

namespace Dsm51

/-- The next step, if it executes an instruction. -/
def executed? (d : Dsm51) : Option (Executed × Dsm51) :=
  match d.step with
  | (d', .ok cycles) =>
    let instruction := d.chip.upcoming d.code.read
    let written? := d.chip.takeInterrupt.1.written? instruction
    some (⟨instruction, d.chip.taken?, written?, cycles⟩, d')
  | (_, .error _) => none

/-- A number of steps of which none fails, with what they executed. -/
def run? (d : Dsm51) : Nat → Option (List Executed × Dsm51)
  | 0 => some ([], d)
  | n + 1 =>
    match d.executed? with
    | some (e, d₁) => (d₁.run? n).map fun (es, d') => (e :: es, d')
    | none => none

variable {d d' : Dsm51} {e : Executed}

theorem step_of_executed (h : d.executed? = some (e, d')) :
    ∃ chip, d.chip.step d.code.read = (chip, .ok e.cycles) ∧
      d' = ({ d with chip } : Dsm51).settle e.cycles ∧
      e.instruction = d.chip.upcoming d.code.read ∧ e.entered? = d.chip.taken? ∧
      e.written? = d.chip.takeInterrupt.1.written? e.instruction := by
  unfold executed? at h
  cases stepped : d.step with
  | mk d₁ result =>
    rw [stepped] at h
    cases result with
    | error _ => cases h
    | ok cycles =>
      cases h
      obtain ⟨chip, executed, caughtUp⟩ := step_eq_ok_iff.1 stepped
      exact ⟨chip, executed, caughtUp, rfl, rfl, rfl⟩

/-- A step reports the time of its instruction, and two machine cycles more if it entered an
interrupt. -/
theorem cycles_of_executed (h : d.executed? = some (e, d')) :
    e.cycles = e.instruction.cycles + if e.entered?.isSome then 2 else 0 := by
  obtain ⟨chip, executed, -, instruction, entered, -⟩ := step_of_executed h
  rw [(Chip.step_ok executed).1, instruction, entered, Chip.taken?_eq, Option.isSome_map]

theorem cycles_step (h : d.executed? = some (e, d')) : d'.cycles = d.cycles + e.cycles := by
  obtain ⟨chip, -, rfl, -⟩ := step_of_executed h
  rfl

/-- A step that leaves the registers of timer 0 alone makes it later by the cycles it reports. -/
theorem tells_step {time : Nat} (h : d.executed? = some (e, d')) (leaves : LeavesTime e.written?)
    (tells : d.peripherals.timers.Tells time) :
    d'.peripherals.timers.Tells (time + e.cycles) := by
  obtain ⟨chip, executed, rfl, instruction, -, written⟩ := step_of_executed h
  have wrote := (Chip.step_ok executed).2
  rw [← instruction, ← written] at wrote
  have executedAt : chip.registers.timers.Tells time :=
    Peripherals.tells_wrote (Chip.tells_takeInterrupt tells) wrote leaves
  let caught : Dsm51 := { d with chip }
  let p : Peripherals :=
    { chip.registers with
      timers := chip.registers.timers.tick (caught.timerInputs e.cycles) }
  have timers : (caught.settle e.cycles).peripherals.timers =
      (p.sampleRequests caught.fallen).timers := by
    obtain ⟨display, settled⟩ := caught.settle_eq e.cycles
    rw [settled]
    rfl
  rw [timers]
  exact Peripherals.tells_sampleRequests (executedAt.tick _) caught.fallen

/-- What a finished run has and every step before it keeps, the whole run has. -/
theorem run_induction {motive : Dsm51 → List Executed → Prop} (done : motive d' [])
    (before : ∀ {d d₁ e es}, d.executed? = some (e, d₁) → motive d₁ es → motive d (e :: es))
    {n : Nat} {es : List Executed} (ran : d.run? n = some (es, d')) : motive d es := by
  induction n generalizing d es with
  | zero =>
    cases ran
    exact done
  | succ n ih =>
    rw [run?] at ran
    split at ran
    · next e d₁ first =>
      obtain ⟨⟨rest, last⟩, ran, same⟩ := Option.map_eq_some_iff.1 ran
      cases same
      exact before first (ih ran)
    · cases ran

variable {n : Nat} {es : List Executed}

theorem cycles_run (ran : d.run? n = some (es, d')) :
    d'.cycles = d.cycles + (es.map Executed.cycles).sum := by
  refine run_induction (motive := fun d es => d'.cycles = d.cycles + (es.map Executed.cycles).sum)
    rfl (fun first later => ?_) ran
  rw [later, cycles_step first, Nat.add_assoc]
  rfl

theorem cycles_of_run (ran : d.run? n = some (es, d')) :
    ∀ e ∈ es, e.cycles = e.instruction.cycles + if e.entered?.isSome then 2 else 0 := by
  refine run_induction (motive := fun _ es =>
      ∀ e ∈ es, e.cycles = e.instruction.cycles + if e.entered?.isSome then 2 else 0)
    (fun e none => absurd none List.not_mem_nil) (fun first later => ?_) ran
  exact List.forall_mem_cons.2 ⟨cycles_of_executed first, later⟩

theorem tells_run (ran : d.run? n = some (es, d')) (undisturbed : ∀ e ∈ es, LeavesTime e.written?)
    {time : Nat} (tells : d.peripherals.timers.Tells time) :
    d'.peripherals.timers.Tells (time + (es.map Executed.cycles).sum) := by
  revert undisturbed time
  refine run_induction (motive := fun d es => (∀ e ∈ es, LeavesTime e.written?) → ∀ {time},
      d.peripherals.timers.Tells time →
        d'.peripherals.timers.Tells (time + (es.map Executed.cycles).sum))
    (fun _ _ tells => tells) (fun {_ _ e _} first later undisturbed time tells => ?_) ran
  obtain ⟨leaves, undisturbed⟩ := List.forall_mem_cons.1 undisturbed
  have told := later undisturbed (tells_step first leaves tells)
  rwa [Nat.add_assoc] at told

/-- **Timer 0 tells the machine time.**  Over steps that do not fail and whose instructions write
none of its registers, a running timer 0 in its sixteen-bit mode is later by just what the machine
cycles have increased by; and these are the cycles of the instructions, and two for every entry of
an interrupt. -/
theorem timer_keeps_time {n : Nat} {es : List Executed} (ran : d.run? n = some (es, d'))
    (keeps : d.peripherals.timers.KeepsTime) (undisturbed : ∀ e ∈ es, LeavesTime e.written?) :
    d'.peripherals.timers.counter0.value16 =
        (d.peripherals.timers.counter0.value16 + (d'.cycles - d.cycles)) % 65536 ∧
      d'.cycles = d.cycles + (es.map Executed.cycles).sum ∧
      (∀ e ∈ es, e.cycles = e.instruction.cycles + if e.entered?.isSome then 2 else 0) ∧
      d'.peripherals.timers.KeepsTime := by
  have cycles := cycles_run ran
  have told := tells_run ran undisturbed keeps.tells
  refine ⟨?_, cycles, cycles_of_run ran, told.toKeepsTime⟩
  rw [cycles, Nat.add_sub_cancel_left]
  exact told.value

/-- Sixteen bits that run over after two machine cycles. -/
def overflowing : Dsm51 :=
  [(Sfr.ie, 0x82), (Sfr.tmod, 0x01), (TimerRegister.th0.address, 0xFF),
    (TimerRegister.tl0.address, 0xFE), (Sfr.tcon, 0x10)].foldl
      (fun d (a, v) => d.writeSfr a v) ((new .binary).writeCode 0x0B [0x32])

/-- The third step enters the interrupt of timer 0 and returns from it. -/
theorem timer_keeps_time_overflowing :
    let d := overflowing
    ∃ es d', d.run? 4 = some (es, d') ∧ d.peripherals.timers.KeepsTime ∧
      (∀ e ∈ es, LeavesTime e.written?) ∧
      es.map Executed.entered? = [none, none, some .timer0, none] ∧
      es.map Executed.cycles = [1, 1, 4, 1] ∧
      d.peripherals.timers.counter0.value16 = 0xFFFE ∧
      d'.peripherals.timers.counter0.value16 = 5 := by
  intro d
  have seen : (d.run? 4).map (fun r => (r.1.all fun e => decide (LeavesTime e.written?),
      r.1.map Executed.entered?, r.1.map Executed.cycles)) =
        some (true, [none, none, some .timer0, none], [1, 1, 4, 1]) := by
    decide +kernel
  obtain ⟨⟨es, d'⟩, ran, same⟩ := Option.map_eq_some_iff.1 seen
  obtain ⟨leaves, entered, cycles⟩ : _ ∧ _ ∧ _ := by simpa only [Prod.mk.injEq] using same
  have undisturbed : ∀ e ∈ es, LeavesTime e.written? := fun e mem =>
    of_decide_eq_true (List.all_eq_true.1 leaves e mem)
  have keeps : d.peripherals.timers.KeepsTime :=
    ⟨by decide +kernel, by decide +kernel, by decide +kernel, by decide +kernel⟩
  have start : d.peripherals.timers.counter0.value16 = 0xFFFE := by decide +kernel
  obtain ⟨time, increase, -⟩ := timer_keeps_time ran keeps undisturbed
  refine ⟨es, d', ran, keeps, undisturbed, entered, cycles, start, ?_⟩
  rw [time, start, increase, Nat.add_sub_cancel_left, cycles]
  rfl

end Dsm51

end Trainer51
