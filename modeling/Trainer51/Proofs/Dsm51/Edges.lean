import Trainer51.Proofs.Chip.Counting
import Trainer51.Proofs.Dsm51.Operations
import Trainer51.Proofs.Dsm51.Prediction

/-!
# Every sampled edge counts once

The pins of port 3 change from two sides: a program writes the latch, and the outside drives the
levels at any time.  The board looks at them once per instruction.  A pin that was high at the last
look and is low now has fallen, and this is what the timers count and what raises the requests of
edge-triggered interrupts.  What is done to the board between two instructions changes at most the
pins that the next look will see.

    an execution hears the sample that the board kept and the next one                 (hears_step)
    what executes nothing keeps the sample and is heard by nobody
                                                                  (lastP3_perform, unheard_perform)
    r.Faithful → (r.perform operation).Faithful                                  (Faithful.perform)
    over a whole history, execution for execution                                (edges_count_once)
-/

namespace Trainer51

theorem Byte.bit_complement (b : Byte) (n : Nat) : (~~~b).bit n = !b.bit n := by
  have flipped : (~~~b).toNat = 2 ^ 8 - (b.toNat + 1) := by
    rw [UInt8.toNat_not, Nat.sub_sub, Nat.add_comm 1]
    rfl
  rw [bit_eq_testBit, bit_eq_testBit, flipped, Nat.testBit_two_pow_sub_succ b.toNat_lt,
    decide_eq_true (Nat.mod_lt n (by decide)), Bool.true_and]

/-- Whether a pin is high in one sample of the port and low in the next. -/
def fell (pin : Nat) (before after : Byte) : Bool := before.bit pin && !after.bit pin

namespace Dsm51

theorem bit_fallen (d : Dsm51) (pin : Nat) :
    d.fallen.bit pin = fell pin d.lastP3 (d.peripherals.pins .p3) := by
  unfold fallen fell
  rw [Byte.bit_and, Byte.bit_complement]

end Dsm51

/-! ## Requests -/

/-- The interrupt that the line requests. -/
def RequestLine.interrupt : RequestLine → Interrupt
  | int0 => .external0
  | int1 => .external1

theorem Interrupt.acknowledged_interrupt {tcon : Byte} {line : RequestLine}
    (edge : tcon.bit line.edge = true) :
    line.interrupt.acknowledged? tcon = some line.request := by
  cases line <;> exact if_pos edge

/-- No other interrupt clears the request of a line. -/
theorem Interrupt.acknowledged_other {i : Interrupt} {tcon : Byte} {n : Nat}
    (h : i.acknowledged? tcon = some n) {line : RequestLine} (other : i ≠ line.interrupt) :
    line.request % 8 ≠ n % 8 := by
  cases i with
  | timer0 | timer1 =>
    cases h
    cases line <;> decide
  | serial => cases h
  | external0 =>
    obtain ⟨-, cleared⟩ := Option.ite_none_right_eq_some.1 h
    cases cleared
    cases line with
    | int0 => exact absurd rfl other
    | int1 => decide
  | external1 =>
    obtain ⟨-, cleared⟩ := Option.ite_none_right_eq_some.1 h
    cases cleared
    cases line with
    | int0 => decide
    | int1 => exact absurd rfl other

namespace Timers

/-- What the acknowledgement of an interrupt leaves of the timers. -/
def acknowledge (t : Timers) (i : Interrupt) : Timers :=
  match i.acknowledged? t.tcon with
  | some n => t.setControl n false
  | none => t

/-- A request that an edge has raised stands until its interrupt is taken. -/
theorem control_acknowledge {t : Timers} {line : RequestLine} (edge : t.control line.edge = true)
    (i : Interrupt) :
    (t.acknowledge i).control line.request =
      (t.control line.request && i != line.interrupt) := by
  unfold acknowledge
  by_cases own : i = line.interrupt
  · rw [own, Interrupt.acknowledged_interrupt edge]
    simp [control_setControl]
  · have other : (i != line.interrupt) = true := bne_iff_ne.2 own
    rw [other, Bool.and_true]
    split
    · next n h => rw [control_setControl, if_neg (Interrupt.acknowledged_other h own)]
    · rfl

theorem counters_acknowledge (t : Timers) (i : Interrupt) :
    (t.acknowledge i).counter0 = t.counter0 ∧ (t.acknowledge i).counter1 = t.counter1 := by
  unfold acknowledge
  split <;> exact ⟨rfl, rfl⟩

end Timers

theorem Chip.acknowledge_registers (c : Chip ExternalData Peripherals) (i : Interrupt) :
    (c.acknowledge i).registers =
      { c.registers with timers := c.registers.timers.acknowledge i } := by
  have tcon : RegisterBus.read c.registers Sfr.tcon = c.registers.timers.tcon := rfl
  unfold acknowledge Timers.acknowledge
  rw [tcon]
  dsimp only
  cases i.acknowledged? c.registers.timers.tcon <;> rfl

/-- Before the instruction of a step nothing beside the core changes but for the acknowledgement. -/
theorem Chip.takeInterrupt_registers (c : Chip ExternalData Peripherals) :
    c.takeInterrupt.1.registers =
      match c.taken? with
      | some i => { c.registers with timers := c.registers.timers.acknowledge i }
      | none => c.registers := by
  rw [c.taken?_eq]
  cases h : c.entry? with
  | none =>
    rw [takeInterrupt_of_no_entry h]
    rfl
  | some entry =>
    rw [takeInterrupt_of_entry h]
    exact acknowledge_registers (c.mapCore ({ · with hold := false })) entry.1

/-! ## One look at the pins -/

namespace Peripherals

theorem control_sampleRequest_of_edge {t : Timers} {edge : Nat} (h : t.control edge = true)
    (pins falling : Byte) (pin request : Nat) :
    (sampleRequest t pins falling pin request edge).control request =
      (t.control request || falling.bit pin) := by
  unfold sampleRequest
  rw [if_pos h, Timers.control_raise_self]

/-- A look at the pins raises the edge-triggered requests whose pins fell. -/
theorem control_sampleRequests (p : Peripherals) (falling : Byte) {line : RequestLine}
    (edge : p.timers.control line.edge = true) :
    (p.sampleRequests falling).timers.control line.request =
      (p.timers.control line.request || falling.bit line.pin) := by
  let pins := p.pins .p3
  let t := sampleRequest p.timers pins falling PinOfP3.int0 Tcon.ie0 Tcon.it0
  cases line with
  | int0 =>
    exact (control_sampleRequest_of_ne t pins falling _ _ _ (by decide)).trans
      (control_sampleRequest_of_edge edge pins falling _ _)
  | int1 =>
    -- the look at the first pin touches nothing of the second line
    have edge' : t.control Tcon.it1 = true :=
      (control_sampleRequest_of_ne p.timers pins falling _ _ _ (by decide)).trans edge
    have request : t.control Tcon.ie1 = p.timers.control Tcon.ie1 :=
      control_sampleRequest_of_ne p.timers pins falling _ _ _ (by decide)
    refine (control_sampleRequest_of_edge edge' pins falling _ _).trans ?_
    rw [request]
    rfl

theorem counters_sampleRequest (t : Timers) (pins falling : Byte) (pin request edge : Nat) :
    (sampleRequest t pins falling pin request edge).counter0 = t.counter0 ∧
      (sampleRequest t pins falling pin request edge).counter1 = t.counter1 := by
  unfold sampleRequest Timers.raise
  split
  · split <;> exact ⟨rfl, rfl⟩
  · exact ⟨rfl, rfl⟩

theorem counters_sampleRequests (p : Peripherals) (falling : Byte) :
    (p.sampleRequests falling).timers.counter0 = p.timers.counter0 ∧
      (p.sampleRequests falling).timers.counter1 = p.timers.counter1 := by
  let pins := p.pins .p3
  let t := sampleRequest p.timers pins falling PinOfP3.int0 Tcon.ie0 Tcon.it0
  have first := counters_sampleRequest p.timers pins falling PinOfP3.int0 Tcon.ie0 Tcon.it0
  have second := counters_sampleRequest t pins falling PinOfP3.int1 Tcon.ie1 Tcon.it1
  exact ⟨second.1.trans first.1, second.2.trans first.2⟩

end Peripherals

/-- What the execution of an instruction is to the timers. -/
structure Execution where
  /-- The timers as the instruction left them. -/
  executed : Timers
  /-- What they are told of the instruction. -/
  inputs : TimerInputs
  /-- The timers when they have counted. -/
  counted : Timers
  /-- The timers when the interrupt pins have been looked at. -/
  settled : Timers

/-- An execution goes by two samples of port 3: the timers are told of the pins that fell between
them, and the edge-triggered requests are raised whose pins did. -/
structure Execution.Hears (e : Execution) (before after : Byte) : Prop where
  counted : e.counted = e.executed.tick e.inputs
  edges0 : e.inputs.edges0 = (fell PinOfP3.t0 before after).toNat
  edges1 : e.inputs.edges1 = (fell PinOfP3.t1 before after).toNat
  request : ∀ line : RequestLine, e.counted.control line.edge = true →
    e.settled.control line.request =
      (e.counted.control line.request || fell line.pin before after)
  counter0 : e.settled.counter0 = e.counted.counter0
  counter1 : e.settled.counter1 = e.counted.counter1

/-- Nothing is counted, and an edge-triggered request stays as it is unless its interrupt is
served. -/
structure Timers.Unheard (t t' : Timers) (served : Option Interrupt) : Prop where
  counter0 : t'.counter0 = t.counter0
  counter1 : t'.counter1 = t.counter1
  request : ∀ line : RequestLine, t.control line.edge = true →
    t'.control line.request = (t.control line.request && served != some line.interrupt)

namespace Dsm51

/-- What the next step is to the timers, if it executes an instruction. -/
def execution? (d : Dsm51) : Option Execution :=
  match d.chip.step d.code.read with
  | (chip, .ok cycles) =>
    let inputs := ({ d with chip } : Dsm51).timerInputs cycles
    some ⟨chip.registers.timers, inputs, chip.registers.timers.tick inputs,
      d.step.1.peripherals.timers⟩
  | (_, .error _) => none

/-- The board catches up with an instruction by one look at the pins, which it keeps for the
next. -/
theorem hears_settle (d : Dsm51) (cycles : Nat) :
    let inputs := d.timerInputs cycles
    let d' := d.settle cycles
    Execution.Hears ⟨d.peripherals.timers, inputs, d.peripherals.timers.tick inputs,
        d'.peripherals.timers⟩ d.lastP3 (d'.peripherals.pins .p3) ∧
      d'.lastP3 = d'.peripherals.pins .p3 := by
  intro inputs d'
  obtain ⟨display, settled⟩ := d.settle_eq cycles
  let p : Peripherals := { d.peripherals with timers := d.peripherals.timers.tick inputs }
  have timers : d'.peripherals.timers = (p.sampleRequests d.fallen).timers := by
    rw [show d' = _ from settled]
    rfl
  have pins : d'.peripherals.pins .p3 = d.peripherals.pins .p3 := by
    rw [show d' = _ from settled]
    rfl
  have last : d'.lastP3 = d.peripherals.pins .p3 := by rw [show d' = _ from settled]
  rw [timers, pins, last]
  obtain ⟨counter0, counter1⟩ := p.counters_sampleRequests d.fallen
  refine ⟨⟨rfl, ?_, ?_, ?_, counter0, counter1⟩, rfl⟩
  · exact congrArg Bool.toNat (d.bit_fallen PinOfP3.t0)
  · exact congrArg Bool.toNat (d.bit_fallen PinOfP3.t1)
  · intro line edge
    refine (p.control_sampleRequests d.fallen edge).trans ?_
    rw [bit_fallen]

theorem hears_step {d : Dsm51} {e : Execution} (h : d.execution? = some e) :
    e.Hears d.lastP3 (d.step.1.peripherals.pins .p3) ∧
      d.step.1.lastP3 = d.step.1.peripherals.pins .p3 := by
  unfold execution? at h
  cases hc : d.chip.step d.code.read with
  | mk chip result =>
    cases result with
    | error _ =>
      rw [hc] at h
      cases h
    | ok cycles =>
      rw [hc, step_of_ok hc] at h
      cases h
      rw [step_of_ok hc]
      exact hears_settle { d with chip } cycles

theorem step_of_no_execution {d : Dsm51} (h : d.execution? = none) :
    d.step.1 = { d with chip := d.chip.takeInterrupt.1 } := by
  unfold execution? at h
  cases hc : d.chip.step d.code.read with
  | mk chip result =>
    cases result with
    | error _ => rw [step_of_error hc, Chip.step_error hc]
    | ok _ =>
      rw [hc] at h
      cases h

end Dsm51

/-! ## Between two executions -/

theorem Timers.Unheard.refl (t : Timers) : t.Unheard t none :=
  ⟨rfl, rfl, fun line _ => (Bool.and_true (t.control line.request)).symm⟩

namespace Dsm51

/-- What an operation is to the timers, if it executes an instruction. -/
def executes? (d : Dsm51) : BoardOperation → Option Execution
  | .step => d.execution?
  | _ => none

/-- The interrupt that an operation enters. -/
def enters? (d : Dsm51) : BoardOperation → Option Interrupt
  | .step => d.chip.taken?
  | _ => none

/-- A step that fails has only entered an interrupt. -/
theorem unheard_step {d : Dsm51} (h : d.execution? = none) :
    d.peripherals.timers.Unheard d.step.1.peripherals.timers d.chip.taken? := by
  rw [step_of_no_execution h]
  show Timers.Unheard _ d.chip.takeInterrupt.1.registers.timers _
  rw [d.chip.takeInterrupt_registers]
  cases d.chip.taken? with
  | none => exact .refl _
  | some i =>
    let t := d.chip.registers.timers
    obtain ⟨counter0, counter1⟩ := t.counters_acknowledge i
    exact ⟨counter0, counter1, fun _ edge => t.control_acknowledge edge i⟩

theorem lastP3_refresh (d : Dsm51) : d.refresh.lastP3 = d.lastP3 := by
  obtain ⟨display, refreshed⟩ := d.refresh_eq
  rw [refreshed]
  rfl

/-- A refresh looks at the levels of the interrupt pins only. -/
theorem unheard_refresh (d : Dsm51) :
    d.peripherals.timers.Unheard d.refresh.peripherals.timers none := by
  let p := d.peripherals
  have timers : d.refresh.peripherals.timers = (p.sampleRequests 0).timers := by
    obtain ⟨display, refreshed⟩ := d.refresh_eq
    rw [refreshed]
    rfl
  rw [timers]
  obtain ⟨counter0, counter1⟩ := p.counters_sampleRequests 0
  refine ⟨counter0, counter1, fun line edge => ?_⟩
  rw [p.control_sampleRequests 0 edge, Byte.bit_zero, Bool.or_false]
  exact (Bool.and_true _).symm

theorem drive_keeps (d : Dsm51) (bit : InputBit) (on : Bool) :
    (d.drive bit on).peripherals.timers = d.peripherals.timers ∧
      (d.drive bit on).lastP3 = d.lastP3 := by
  unfold drive
  split <;> exact ⟨rfl, rfl⟩

/-- Nobody hears of an operation that executes no instruction. -/
theorem unheard_perform {d : Dsm51} {operation : BoardOperation} (going : ¬operation.isReset)
    (direct : ∀ a v, operation ≠ .writeSfr a v) (h : d.executes? operation = none) :
    d.peripherals.timers.Unheard (d.perform operation).peripherals.timers
      (d.enters? operation) := by
  cases operation with
  | step => exact unheard_step h
  | refresh => exact d.unheard_refresh
  | drive bit on =>
    show Timers.Unheard _ (d.drive bit on).peripherals.timers none
    rw [(d.drive_keeps bit on).1]
    exact .refl _
  | load file =>
    show Timers.Unheard _ (d.load file).1.peripherals.timers none
    unfold load
    split <;> exact .refl _
  | writeCode | setCore => exact .refl _
  | writeSfr a v => exact absurd rfl (direct a v)
  | clearAll | clearWorking => exact absurd rfl going

/-- What executes no instruction keeps the last sample. -/
theorem lastP3_perform {d : Dsm51} {operation : BoardOperation} (going : ¬operation.isReset)
    (h : d.executes? operation = none) : (d.perform operation).lastP3 = d.lastP3 := by
  cases operation with
  | step =>
    show d.step.1.lastP3 = _
    rw [step_of_no_execution h]
  | refresh => exact d.lastP3_refresh
  | drive bit on => exact (d.drive_keeps bit on).2
  | load file =>
    show (d.load file).1.lastP3 = _
    unfold load
    split <;> rfl
  | writeCode | setCore | writeSfr => rfl
  | clearAll | clearWorking => exact absurd rfl going

/-- The sample that a new board keeps is that of its own pins. -/
theorem lastP3_new (format : ImageFormat) :
    (new format).lastP3 = (new format).peripherals.pins .p3 := by
  show (0xDF : Byte) = 0xFF &&& 0xDF
  decide

/-- A reset samples the pins and stops the timers. -/
theorem perform_of_isReset {d : Dsm51} {operation : BoardOperation} (h : operation.isReset) :
    (d.perform operation).lastP3 = (d.perform operation).peripherals.pins .p3 ∧
      (d.perform operation).peripherals.timers = {} := by
  cases operation with
  | clearAll => exact ⟨lastP3_new d.format, rfl⟩
  | clearWorking => exact ⟨rfl, rfl⟩
  | _ => exact absurd h Bool.false_ne_true

end Dsm51

/-! ## A recording -/

/-- A board with what went on since it was switched on or reset. -/
structure Recording where
  board : Dsm51
  /-- The pins of port 3 after the reset and after every execution, the oldest first. -/
  samples : List Byte
  executions : List Execution

namespace Recording

def start (format : ImageFormat) : Recording :=
  ⟨.new format, [(Dsm51.new format).peripherals.pins .p3], []⟩

def perform (r : Recording) (operation : BoardOperation) : Recording :=
  let board := r.board.perform operation
  let sample := board.peripherals.pins .p3
  if operation.isReset then ⟨board, [sample], []⟩
  else
    match r.board.executes? operation with
    | some e => ⟨board, r.samples ++ [sample], r.executions ++ [e]⟩
    | none => { r with board }

def after (r : Recording) (script : List BoardOperation) : Recording := script.foldl perform r

theorem board_perform (r : Recording) (operation : BoardOperation) :
    (r.perform operation).board = r.board.perform operation := by
  unfold perform
  dsimp only
  split
  · rfl
  · split <;> rfl

theorem board_after (r : Recording) (script : List BoardOperation) :
    (r.after script).board = r.board.after script := by
  induction script generalizing r with
  | nil => rfl
  | cons operation script ih =>
    refine (ih (r.perform operation)).trans ?_
    rw [board_perform]
    rfl

/-- Every execution has heard the two samples about it, and the board keeps the last one. -/
structure Faithful (r : Recording) : Prop where
  last : r.samples.getLast? = some r.board.lastP3
  length : r.samples.length = r.executions.length + 1
  hears : ∀ i before after e, r.samples[i]? = some before → r.samples[i + 1]? = some after →
    r.executions[i]? = some e → e.Hears before after

theorem Faithful.single {d : Dsm51} (h : d.lastP3 = d.peripherals.pins .p3) :
    Faithful ⟨d, [d.peripherals.pins .p3], []⟩ where
  last := congrArg some h.symm
  length := rfl
  hears _ _ _ _ _ _ absent := by cases absent

/-- An execution that hears the last sample and the next one. -/
theorem Faithful.append {r : Recording} (h : r.Faithful) {d : Dsm51} {e : Execution}
    (heard : e.Hears r.board.lastP3 (d.peripherals.pins .p3))
    (kept : d.lastP3 = d.peripherals.pins .p3) :
    Faithful ⟨d, r.samples ++ [d.peripherals.pins .p3], r.executions ++ [e]⟩ where
  last := by rw [List.getLast?_concat, kept]
  length := by simp [h.length]
  hears i before after e' hb ha he := by
    have length := h.length
    obtain earlier | latest := Nat.lt_or_ge i r.executions.length
    · -- neither of the two samples is the new one
      rw [List.getElem?_append_left (by omega)] at hb ha he
      exact h.hears i before after e' hb ha he
    · obtain ⟨within, -⟩ := List.getElem?_eq_some_iff.1 he
      rw [List.length_append, List.length_singleton] at within
      obtain rfl : i = r.executions.length := by omega
      have last := h.last
      rw [List.getLast?_eq_getElem?, length, Nat.add_sub_cancel] at last
      rw [List.getElem?_append_left (by omega), last] at hb
      rw [← length, List.getElem?_concat_length] at ha
      rw [List.getElem?_concat_length] at he
      cases hb
      cases ha
      cases he
      exact heard

theorem Faithful.perform {r : Recording} (h : r.Faithful) (operation : BoardOperation) :
    (r.perform operation).Faithful := by
  unfold Recording.perform
  dsimp only
  split
  · next reset => exact .single (Dsm51.perform_of_isReset reset).1
  · next going =>
    split
    · next e executed =>
      cases operation with
      | step =>
        obtain ⟨heard, kept⟩ := Dsm51.hears_step executed
        exact h.append heard kept
      | _ => cases executed
    · next none =>
      exact ⟨h.last.trans (congrArg some (Dsm51.lastP3_perform going none).symm), h.length,
        h.hears⟩

theorem Faithful.after {r : Recording} (h : r.Faithful) (script : List BoardOperation) :
    (r.after script).Faithful := by
  induction script generalizing r with
  | nil => exact h
  | cons operation script ih => exact ih (h.perform operation)

theorem faithful_start (format : ImageFormat) : (start format).Faithful :=
  .single (Dsm51.lastP3_new format)

end Recording

/-- Whatever is done to a board, the i-th execution since the last reset counts a pulse on a timer
pin, and raises an edge-triggered request, exactly if the pin is high in the i-th sample of port 3
and low in the next; what executes nothing is heard by nobody. -/
theorem Dsm51.edges_count_once (format : ImageFormat) (script : List BoardOperation) :
    let r := (Recording.start format).after script
    r.board = (new format).after script ∧
    r.samples.length = r.executions.length + 1 ∧
    (∀ i before after e, r.samples[i]? = some before → r.samples[i + 1]? = some after →
      r.executions[i]? = some e → e.Hears before after) ∧
    ∀ operation,
      let timers := r.board.peripherals.timers
      let timers' := (r.board.perform operation).peripherals.timers
      if operation.isReset then timers' = {}
      else r.board.executes? operation = none → (∀ a v, operation ≠ .writeSfr a v) →
        timers.Unheard timers' (r.board.enters? operation) := by
  intro r
  have faithful := (Recording.faithful_start format).after script
  refine ⟨Recording.board_after _ script, faithful.length, faithful.hears, fun operation => ?_⟩
  dsimp only
  split
  · next reset => exact (perform_of_isReset reset).2
  · next going => exact fun none direct => unheard_perform going direct none

/-- A pin that falls between two steps is counted by the second of them and by no other. -/
example :
    let t0 : InputBit := ⟨.port3, PinOfP3.t0⟩
    let r := (Recording.start .binary).after [.step, .drive t0 false, .refresh, .step, .step]
    r.executions.map (·.inputs.edges0) = [0, 1, 0] := by
  decide +kernel

end Trainer51
