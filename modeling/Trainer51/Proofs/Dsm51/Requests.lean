import Trainer51.Proofs.Chip.Written
import Trainer51.Proofs.Dsm51.Edges

/-!
# A request is served once

The bits of TCON that request interrupts are raised from many sides: the timers overflow, the
interrupt pins are looked at, and programs write the register.  The entry of an interrupt clears the
request that it serves, and no other.  So whoever is served again has been asked for again.

    what an operation does to the registers, one moment after the other      (linked_history)
    a flag that is down after one moment and up before a later one has gone up in between
                                                                             (raised_between)
    a moment that raises a flag is an overflow, a look at the pins or a write    (raises_of_means)
    between two entries of an interrupt its request is raised                    (served_once)
-/

namespace Trainer51

/-! ## Requests in TCON -/

namespace Interrupt

/-- The bit of TCON that requests the interrupt; the serial port has its requests elsewhere. -/
def request? : Interrupt → Option Nat
  | external0 => some Tcon.ie0
  | timer0 => some Tcon.tf0
  | external1 => some Tcon.ie1
  | timer1 => some Tcon.tf1
  | serial => none

/-- Whether the request follows a pin. -/
def followsPin (i : Interrupt) (tcon : Byte) : Bool :=
  match i with
  | external0 => !tcon.bit Tcon.it0
  | external1 => !tcon.bit Tcon.it1
  | _ => false

theorem acknowledged?_eq (i : Interrupt) (tcon : Byte) :
    i.acknowledged? tcon = if i.followsPin tcon then none else i.request? := by
  cases i with
  | external0 => cases h : tcon.bit Tcon.it0 <;> simp [acknowledged?, followsPin, request?, h]
  | external1 => cases h : tcon.bit Tcon.it1 <;> simp [acknowledged?, followsPin, request?, h]
  | _ => rfl

theorem requested_of_request {i : Interrupt} {n : Nat} (h : i.request? = some n)
    (r : InterruptRegisters) : i.requested r = r.tcon.bit n := by
  cases i <;> cases h <;> rfl

theorem requested_of_pending {r : InterruptRegisters} {s : InService} {i : Interrupt}
    {level : Level} (h : pending? r s = some (i, level)) : i.requested r = true := by
  unfold pending? at h
  split at h
  · obtain ⟨l, -, found⟩ := List.exists_of_findSome?_eq_some h
    obtain ⟨i', first, same⟩ := Option.map_eq_some_iff.1 found
    cases same
    have := List.find?_some first
    simp only [Bool.and_eq_true] at this
    exact this.2
  · cases h

/-- What the entry of an interrupt makes of the registers: a request that does not follow a pin is
cleared, and nothing else in TCON or SCON changes. -/
structure Acknowledged (i : Interrupt) (p p' : Peripherals) : Prop where
  requested : ∀ n, i.request? = some n → p.timers.control n = true
  cleared : ∀ n, i.request? = some n → i.followsPin p.timers.tcon = false →
    p'.timers.tcon = p.timers.tcon.setBit n false
  kept : i = .serial ∨ i.followsPin p.timers.tcon = true → p'.timers.tcon = p.timers.tcon
  scon : p'.read Sfr.scon = p.read Sfr.scon

end Interrupt

namespace Chip

theorem requested_of_taken {c : Chip ExternalData Peripherals} {i : Interrupt}
    (h : c.taken? = some i) : i.requested c.interruptRegisters = true := by
  unfold taken? at h
  split at h
  · cases h
  · obtain ⟨⟨i', level⟩, pending, same⟩ := Option.map_eq_some_iff.1 h
    cases same
    exact Interrupt.requested_of_pending pending

/-- An interrupt is entered on request, and its request is acknowledged. -/
theorem acknowledged_takeInterrupt {c : Chip ExternalData Peripherals} {i : Interrupt}
    (h : c.taken? = some i) : i.Acknowledged c.registers c.takeInterrupt.1.registers := by
  have after : c.takeInterrupt.1.registers =
      { c.registers with timers := c.registers.timers.acknowledge i } := by
    rw [c.takeInterrupt_registers, h]
  have acknowledged := i.acknowledged?_eq c.registers.timers.tcon
  rw [after]
  constructor
  case requested =>
    intro n request
    exact (Interrupt.requested_of_request request _).symm.trans (requested_of_taken h)
  case cleared =>
    intro n request edge
    rw [if_neg (by rw [edge]; exact Bool.false_ne_true), request] at acknowledged
    unfold Timers.acknowledge
    rw [acknowledged]
    rfl
  case kept =>
    intro kept
    have none : i.acknowledged? c.registers.timers.tcon = none := by
      obtain rfl | level := kept
      · rfl
      · rw [acknowledged, if_pos level]
    unfold Timers.acknowledge
    rw [none]
  case scon => rfl

end Chip

/-! ## Moments -/

/-- What can happen to the registers. -/
inductive RegisterEvent where
  | entered (i : Interrupt)
  /-- An instruction has been executed, or a register written directly: that register, if any. -/
  | wrote (register : Option Byte)
  | counted (inputs : TimerInputs)
  /-- The interrupt pins have been looked at, of which some have fallen. -/
  | sampled (fallen : Byte)
  | reset
  /-- Nothing that concerns the timers. -/
  | aside
  deriving DecidableEq

/-- An event with the registers before and after it. -/
structure Moment where
  event : RegisterEvent
  before : Peripherals
  after : Peripherals

/-- What an event does. -/
def RegisterEvent.Means (p p' : Peripherals) : RegisterEvent → Prop
  | entered i => i.Acknowledged p p'
  | wrote register => Wrote register p p'
  | counted inputs => p' = { p with timers := p.timers.tick inputs }
  | sampled fallen => p' = p.sampleRequests fallen
  | reset => p'.timers = {}
  | aside => p'.timers = p.timers

/-- Moments one after the other, from some registers to others. -/
def Linked (p : Peripherals) : List Moment → Peripherals → Prop
  | [], p' => p = p'
  | m :: moments, p' => m.before = p ∧ m.event.Means m.before m.after ∧ Linked m.after moments p'

namespace Dsm51

/-- The moments of a step: an interrupt is entered, an instruction is executed, the timers count
and the interrupt pins are looked at. -/
def stepMoments (d : Dsm51) : List Moment :=
  let entered := d.chip.takeInterrupt.1.registers
  let entry := d.chip.taken?.toList.map fun i => ⟨.entered i, d.peripherals, entered⟩
  match d.chip.step d.code.read with
  -- the interrupt has been entered all the same
  | (_, .error _) => entry
  | (chip, .ok cycles) =>
    let board := { d with chip }
    let register := d.chip.takeInterrupt.1.written? (d.chip.upcoming d.code.read)
    let inputs := board.timerInputs cycles
    let counted := { chip.registers with timers := chip.registers.timers.tick inputs }
    entry ++
      [⟨.wrote register, entered, chip.registers⟩, ⟨.counted inputs, chip.registers, counted⟩,
        ⟨.sampled board.fallen, counted, counted.sampleRequests board.fallen⟩]

/-- The moments of an operation. -/
def moments (d : Dsm51) (operation : BoardOperation) : List Moment :=
  let single event := [⟨event, d.peripherals, (d.perform operation).peripherals⟩]
  match operation with
  | .step => d.stepMoments
  | .refresh => single (.sampled 0)
  | .writeSfr a _ => single (.wrote (some a))
  | .clearAll | .clearWorking => single .reset
  | .load _ | .writeCode .. | .setCore _ | .drive .. => single .aside

/-- The moments of a run. -/
def history (d : Dsm51) : List BoardOperation → List Moment
  | [] => []
  | operation :: script => d.moments operation ++ (d.perform operation).history script

end Dsm51

/-- What raises a flag of TCON: the overflow of a timer, the edge or the level of an interrupt pin,
or a write to the register. -/
inductive Moment.Raises (m : Moment) : Nat → Prop where
  | overflow (unit : TimerUnit) (inputs : TimerInputs) (event : m.event = .counted inputs)
      (overflows : unit.overflows m.before.timers inputs = true) : m.Raises unit.overflow
  | edge (line : RequestLine) (fallen : Byte) (event : m.event = .sampled fallen)
      (edge : m.before.timers.control line.edge = true) (fell : fallen.bit line.pin = true) :
      m.Raises line.request
  | level (line : RequestLine) (fallen : Byte) (event : m.event = .sampled fallen)
      (level : m.before.timers.control line.edge = false)
      (low : (m.before.pins .p3).bit line.pin = false) : m.Raises line.request
  | write (n : Nat) (event : m.event = .wrote (some Sfr.tcon)) : m.Raises n

/-! ## Moments are linked -/

theorem Linked.append {p q p' : Peripherals} {moments later : List Moment}
    (h : Linked p moments q) (h' : Linked q later p') : Linked p (moments ++ later) p' := by
  induction moments generalizing p with
  | nil =>
    cases h
    exact h'
  | cons m moments ih => exact ⟨h.1, h.2.1, ih h.2.2⟩

theorem Linked.single {p p' : Peripherals} {event : RegisterEvent} (h : event.Means p p') :
    Linked p [⟨event, p, p'⟩] p' :=
  ⟨rfl, h, rfl⟩

theorem Linked.means {p p' : Peripherals} {moments : List Moment} (h : Linked p moments p')
    {m : Moment} (hm : m ∈ moments) : m.event.Means m.before m.after := by
  induction moments generalizing p with
  | nil => cases hm
  | cons first moments ih =>
    obtain rfl | later := List.mem_cons.1 hm
    · exact h.2.1
    · exact ih h.2.2 later

/-- What one moment leaves is what the next one begins with. -/
theorem Linked.next {p p' : Peripherals} {moments : List Moment} (h : Linked p moments p') {k : Nat}
    {m m' : Moment} (hm : moments[k]? = some m) (hm' : moments[k + 1]? = some m') :
    m'.before = m.after := by
  induction k generalizing p moments with
  | zero =>
    match moments, h with
    | first :: second :: _, h =>
      cases hm
      cases hm'
      exact h.2.2.1
  | succ k ih =>
    match moments, h with
    | first :: moments, h => exact ih h.2.2 hm hm'

/-- A flag that is down after one moment and up before a later one is raised by a moment in
between. -/
theorem Linked.raised_between {p p' : Peripherals} {moments : List Moment}
    (h : Linked p moments p') {a b n : Nat} {m m' : Moment} (ha : moments[a]? = some m)
    (hb : moments[b]? = some m') (lt : a < b) (down : m.after.timers.control n = false)
    (up : m'.before.timers.control n = true) :
    ∃ c r, a < c ∧ c < b ∧ moments[c]? = some r ∧ r.before.timers.control n = false ∧
      r.after.timers.control n = true := by
  induction b generalizing m' with
  | zero => cases lt
  | succ b ih =>
    obtain ⟨within, -⟩ := List.getElem?_eq_some_iff.1 hb
    obtain ⟨r, hr⟩ : ∃ r, moments[b]? = some r :=
      ⟨_, List.getElem?_eq_getElem (Nat.lt_of_succ_lt within)⟩
    rw [h.next hr hb] at up
    obtain rfl | before := Nat.eq_or_lt_of_le (Nat.le_of_lt_succ lt)
    · -- the two moments follow each other
      rw [ha] at hr
      cases hr
      rw [down] at up
      cases up
    · cases raised : r.before.timers.control n with
      | false => exact ⟨b, r, before, Nat.lt_succ_self b, hr, raised, up⟩
      | true =>
        obtain ⟨c, r', first, last, rest⟩ := ih hr before raised
        exact ⟨c, r', first, Nat.lt_succ_of_lt last, rest⟩

/-! ## The moments of a board -/

namespace Dsm51

theorem linked_stepMoments (d : Dsm51) :
    Linked d.peripherals d.stepMoments d.step.1.peripherals := by
  have entry : Linked d.peripherals
      (d.chip.taken?.toList.map fun i =>
        ⟨.entered i, d.peripherals, d.chip.takeInterrupt.1.registers⟩)
      d.chip.takeInterrupt.1.registers := by
    cases taken : d.chip.taken? with
    | none =>
      have same := d.chip.takeInterrupt_registers
      rw [taken] at same
      exact same.symm
    | some i => exact .single (Chip.acknowledged_takeInterrupt taken)
  unfold stepMoments
  cases hc : d.chip.step d.code.read with
  | mk chip result =>
    cases result with
    | error e =>
      rw [step_of_error hc, Chip.step_error hc]
      exact entry
    | ok cycles =>
      obtain ⟨display, settled⟩ := settle_eq { d with chip } cycles
      rw [step_of_ok hc, settled]
      exact entry.append ⟨rfl, (Chip.step_ok hc).2, rfl, rfl, rfl, rfl, rfl⟩

theorem linked_moments (d : Dsm51) (operation : BoardOperation) :
    Linked d.peripherals (d.moments operation) (d.perform operation).peripherals := by
  cases operation with
  | step => exact d.linked_stepMoments
  | refresh =>
    obtain ⟨display, refreshed⟩ := d.refresh_eq
    refine .single ?_
    show d.refresh.peripherals = _
    rw [refreshed]
    rfl
  | writeSfr a v => exact .single (d.chip.wrote_writeSfr a v)
  | clearAll | clearWorking | writeCode | setCore => exact .single rfl
  | load file =>
    refine .single ?_
    show (d.load file).1.peripherals.timers = _
    unfold load
    split <;> rfl
  | drive bit on => exact .single (d.drive_keeps bit on).1

theorem linked_history (d : Dsm51) (script : List BoardOperation) :
    Linked d.peripherals (d.history script) (d.after script).peripherals := by
  induction script generalizing d with
  | nil => rfl
  | cons operation script ih => exact (d.linked_moments operation).append (ih _)

end Dsm51

/-! ## What raises a request -/

namespace Peripherals

theorem control_write {a : Byte} (other : a ≠ Sfr.tcon) (p : Peripherals) (v : Byte) (n : Nat) :
    (p.write a v).timers.control n = p.timers.control n := by
  unfold write
  split
  · rfl
  · split
    · next r found =>
      cases r with
      | tcon => exact absurd (TimerRegister.address_of_ofAddress? found).symm other
      | _ => rfl
    · rfl

/-- A look at the pins touches nothing of TCON but the two requests. -/
theorem control_sampleRequests_of_ne (p : Peripherals) (falling : Byte) {n : Nat}
    (others : ∀ line : RequestLine, n % 8 ≠ line.request % 8) :
    (p.sampleRequests falling).timers.control n = p.timers.control n :=
  (control_sampleRequest_of_ne _ _ _ _ _ _ (others .int1)).trans
    (control_sampleRequest_of_ne _ _ _ _ _ _ (others .int0))

end Peripherals

namespace Interrupt

/-- A request in TCON is the overflow flag of a timer or belongs to an interrupt pin. -/
theorem request_cases {i : Interrupt} {n : Nat} (h : i.request? = some n) :
    (∃ unit : TimerUnit, n = unit.overflow) ∨ ∃ line : RequestLine, n = line.request := by
  cases i with
  | timer0 =>
    cases h
    exact .inl ⟨.timer0, rfl⟩
  | timer1 =>
    cases h
    exact .inl ⟨.timer1, rfl⟩
  | external0 =>
    cases h
    exact .inr ⟨.int0, rfl⟩
  | external1 =>
    cases h
    exact .inr ⟨.int1, rfl⟩
  | serial => cases h

/-- The entry of an interrupt raises no flag. -/
theorem Acknowledged.down {i : Interrupt} {p p' : Peripherals} (h : i.Acknowledged p p') {n : Nat}
    (down : p.timers.control n = false) : p'.timers.control n = false := by
  show p'.timers.tcon.bit n = false
  by_cases kept : i = .serial ∨ i.followsPin p.timers.tcon = true
  · rw [h.kept kept]
    exact down
  · obtain ⟨other, edge⟩ := not_or.1 kept
    obtain ⟨k, request⟩ : ∃ k, i.request? = some k := by
      cases i with
      | serial => exact absurd rfl other
      | _ => exact ⟨_, rfl⟩
    rw [h.cleared k request (Bool.eq_false_iff.2 edge), Byte.bit_setBit]
    split
    · rfl
    · exact down

end Interrupt

/-- A look at the pins raises a request by an edge, or by the level that it follows. -/
theorem raises_sampled {p : Peripherals} {fallen : Byte} {line : RequestLine}
    (down : p.timers.control line.request = false)
    (up : (p.sampleRequests fallen).timers.control line.request = true) :
    Moment.Raises ⟨.sampled fallen, p, p.sampleRequests fallen⟩ line.request := by
  cases edge : p.timers.control line.edge with
  | true =>
    rw [p.control_sampleRequests fallen edge, down, Bool.false_or] at up
    exact .edge line fallen rfl edge up
  | false =>
    have level : (p.sampleRequests fallen).timers.control line.edge = false := by
      rw [p.control_sampleRequests_of_ne fallen, edge]
      intro other
      cases line <;> cases other <;> decide
    have low : true = !(p.pins .p3).bit line.pin :=
      up.symm.trans (p.follows_sampleRequests fallen line level)
    exact .level line fallen rfl edge (by simpa using low)

/-- A moment in which a request goes up is one of those that raise it. -/
theorem raises_of_means {m : Moment} (means : m.event.Means m.before m.after) {i : Interrupt}
    {n : Nat} (request : i.request? = some n) (down : m.before.timers.control n = false)
    (up : m.after.timers.control n = true) : m.Raises n := by
  obtain ⟨event, p, p'⟩ := m
  replace down : p.timers.control n = false := down
  replace up : p'.timers.control n = true := up
  -- most events leave the flag as it was, and then it has not gone up
  have of_same (same : p'.timers.control n = p.timers.control n) :
      Moment.Raises ⟨event, p, p'⟩ n := by
    rw [same, down] at up
    cases up
  cases event with
  | entered i' =>
    have entered : i'.Acknowledged p p' := means
    exact of_same ((entered.down down).trans down.symm)
  | wrote register =>
    obtain rfl | ⟨a, v, rfl, rfl⟩ : Wrote register p p' := means
    · exact of_same rfl
    · by_cases tcon : a = Sfr.tcon
      · exact .write n (congrArg (RegisterEvent.wrote ∘ some) tcon)
      · exact of_same (Peripherals.control_write tcon p v n)
  | counted inputs =>
    obtain rfl : p' = { p with timers := p.timers.tick inputs } := means
    obtain ⟨unit, rfl⟩ | ⟨line, rfl⟩ := Interrupt.request_cases request
    · have overflows : (p.timers.control unit.overflow || unit.overflows p.timers inputs) = true :=
        (p.timers.control_tick_overflow inputs unit).symm.trans up
      rw [down, Bool.false_or] at overflows
      exact .overflow unit inputs rfl overflows
    · exact of_same (p.timers.control_tick inputs fun unit => by
        cases line <;> cases unit <;> decide)
  | sampled fallen =>
    obtain rfl : p' = p.sampleRequests fallen := means
    obtain ⟨unit, rfl⟩ | ⟨line, rfl⟩ := Interrupt.request_cases request
    · exact of_same (p.control_sampleRequests_of_ne fallen fun line => by
        cases line <;> cases unit <;> decide)
    · exact raises_sampled down up
  | reset =>
    have stopped : p'.timers = {} := means
    rw [stopped] at up
    cases (Byte.bit_zero n).symm.trans up
  | aside =>
    have same : p'.timers = p.timers := means
    exact of_same (by rw [same])

/-! ## Between two entries -/

/-- Between two moments of a history a flag goes up, and what raises it is known. -/
def RaisedBetween (history : List Moment) (a b n : Nat) : Prop :=
  ∃ c m, a < c ∧ c < b ∧ history[c]? = some m ∧ m.before.timers.control n = false ∧
    m.after.timers.control n = true ∧ m.Raises n

namespace Dsm51

/-- **A request is served once.**  Whatever is done to a board, the moments of its history lead from
a new board to this one.  An interrupt is entered on request, and before the first instruction of
its service the request is cleared, unless it follows a pin or belongs to the serial port; nothing
else in TCON or SCON changes.  Between two entries of an interrupt of which the first one has cleared
the request, the request is raised again: a timer overflows, a pin falls, the register is written,
or the request has come to follow a pin and the pin is low. -/
theorem served_once (format : ImageFormat) (script : List BoardOperation) :
    let d := (new format).after script
    let history := (new format).history script
    Linked (new format).peripherals history d.peripherals ∧
    (∀ i, d.chip.taken? = some i → d.chip.takeInterrupt.1.core.pc = i.vector ∧
      i.Acknowledged d.peripherals d.chip.takeInterrupt.1.registers) ∧
    ∀ (a b : Nat) (m m' : Moment) (i : Interrupt) (n : Nat), a < b →
      history[a]? = some m → m.event = .entered i →
      history[b]? = some m' → m'.event = .entered i →
      i.request? = some n → i.followsPin m.before.timers.tcon = false →
      RaisedBetween history a b n := by
  intro d history
  have linked : Linked (new format).peripherals history d.peripherals :=
    (new format).linked_history script
  refine ⟨linked, ?_, ?_⟩
  · intro i taken
    refine ⟨?_, Chip.acknowledged_takeInterrupt taken⟩
    rw [Chip.pc_takeInterrupt, taken]
    rfl
  · intro a b m m' i n lt ha first hb second request edge
    have entered : i.Acknowledged m.before m.after := by
      have means := linked.means (List.mem_of_getElem? ha)
      rwa [first] at means
    have again : i.Acknowledged m'.before m'.after := by
      have means := linked.means (List.mem_of_getElem? hb)
      rwa [second] at means
    have down : m.after.timers.control n = false := by
      show m.after.timers.tcon.bit n = false
      rw [entered.cleared n request edge, Byte.bit_setBit, if_pos rfl]
    obtain ⟨c, r, after, before, hc, was, now⟩ :=
      linked.raised_between ha hb lt down (again.requested n request)
    have means := linked.means (List.mem_of_getElem? hc)
    exact ⟨c, r, after, before, hc, was, now, raises_of_means means request was now⟩

/-- Timer 0 overflows with every machine cycle, and its service returns at once. -/
def everOverflowing : List BoardOperation :=
  [.writeCode Interrupt.timer0.vector [0x32], .writeSfr Sfr.tmod 0x02,
    .writeSfr TimerRegister.th0.address 0xFF, .writeSfr TimerRegister.tl0.address 0xFF,
    .writeSfr Sfr.tcon 0x10, .writeSfr Sfr.ie 0x82, .step, .step, .step, .step]

/-- Two entries of a timer interrupt, and an overflow between them. -/
theorem served_once_overflow :
    let history := (new .binary).history everOverflowing
    history[9]?.map (·.event) = some (.entered .timer0) ∧
      history[16]?.map (·.event) = some (.entered .timer0) ∧
      RaisedBetween history 9 16 Tcon.tf0 := by
  intro history
  have first : history[9]?.map (·.event) = some (.entered .timer0) := by decide +kernel
  have second : history[16]?.map (·.event) = some (.entered .timer0) := by decide +kernel
  obtain ⟨m, hm, entered⟩ := Option.map_eq_some_iff.1 first
  obtain ⟨m', hm', entered'⟩ := Option.map_eq_some_iff.1 second
  obtain ⟨-, -, between⟩ := served_once .binary everOverflowing
  exact ⟨first, second, between 9 16 m m' .timer0 Tcon.tf0 (by decide) hm entered hm' entered'
    rfl rfl⟩

/-- A handler for external interrupt 0 that makes its request follow the pin: `CLR IT0`, `RETI`. -/
def handler : List Byte := [0xC2, 0x88, 0x32]

/-- While the pin is low an edge is requested, the interrupt is entered, and then once more. -/
def enteredTwice : List BoardOperation :=
  [.writeCode Interrupt.external0.vector handler, .drive ⟨.port3, PinOfP3.int0⟩ false,
    .writeSfr Sfr.ie 0x81, .writeSfr Sfr.tcon 0x03, .step, .step, .step, .step, .step]

/-- The second entry is requested by the level of the pin alone. -/
theorem raised_by_level :
    let history := (new .binary).history enteredTwice
    let between := (history.take 17).drop 8
    history[7]?.map (·.event) = some (.entered .external0) ∧
      history[17]?.map (·.event) = some (.entered .external0) ∧
      history[7]?.map (·.before.timers.control Tcon.it0) = some true ∧
      (between.filter fun m =>
          !m.before.timers.control Tcon.ie0 && m.after.timers.control Tcon.ie0).map
        (fun m => (m.event, m.before.timers.control Tcon.it0)) = [(.sampled 0, false)] := by
  decide +kernel

end Dsm51

end Trainer51
