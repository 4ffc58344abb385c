import Trainer51.Proofs.Chip.Buses
import Trainer51.Proofs.Dsm51.Ready
import Trainer51.Proofs.Workbench.View

/-!
# Nothing is left to refresh

The requests of level-triggered interrupts follow their pins, and the digits of the display follow
the display registers while they are selected.  A board brings both up to date after each
instruction that it executes, and whoever presses a key asks it to.  In between a program may write
any register, an instruction may fail and a reset may clear what both follow, so that they could be
out of date.  They never are: the instruction that fails has at most cleared a request that does not
follow its pin, and a reset leaves the pins high and the display off.

    no program changes what the outside drives                     (outside_step)
    d.Settled → d.refresh = d                                      (Settled.refresh)
    what can happen on a workbench keeps d.Settled                 (keysKeep_settled)
    requests, digits and panel after every script are up to date   (settled_after_new)
-/

namespace Trainer51

/-! ## Interrupt pins -/

/-- The external interrupts. -/
inductive RequestLine where
  | int0 | int1
  deriving DecidableEq, Repr

namespace RequestLine

/-- Its pin of port 3. -/
def pin : RequestLine → Nat
  | int0 => PinOfP3.int0
  | int1 => PinOfP3.int1

/-- The bit of TCON that requests the interrupt. -/
def request : RequestLine → Nat
  | int0 => Tcon.ie0
  | int1 => Tcon.ie1

/-- The bit of TCON that is set while edges raise the request, and clear while it follows the
pin. -/
def edge : RequestLine → Nat
  | int0 => Tcon.it0
  | int1 => Tcon.it1

theorem request_injective {line line' : RequestLine}
    (h : line.request % 8 = line'.request % 8) : line = line' := by
  revert h
  cases line <;> cases line' <;> decide

end RequestLine

/-- What is cleared to acknowledge an interrupt: the request of a timer, or one that an edge has
raised. -/
theorem Interrupt.acknowledged_cases {i : Interrupt} {tcon : Byte} {n : Nat}
    (h : i.acknowledged? tcon = some n) :
    n = Tcon.tf0 ∨ n = Tcon.tf1 ∨
      ∃ line : RequestLine, n = line.request ∧ tcon.bit line.edge = true := by
  cases i with
  | timer0 =>
    cases h
    exact .inl rfl
  | timer1 =>
    cases h
    exact .inr (.inl rfl)
  | external0 =>
    obtain ⟨edge, cleared⟩ := Option.ite_none_right_eq_some.1 h
    cases cleared
    exact .inr (.inr ⟨.int0, rfl, edge⟩)
  | external1 =>
    obtain ⟨edge, cleared⟩ := Option.ite_none_right_eq_some.1 h
    cases cleared
    exact .inr (.inr ⟨.int1, rfl, edge⟩)
  | serial => cases h

/-- The interrupts acknowledged by clearing a bit do not follow a pin with it. -/
theorem Interrupt.acknowledged_ne {i : Interrupt} {tcon : Byte} {n : Nat}
    (h : i.acknowledged? tcon = some n) (line : RequestLine) :
    line.edge % 8 ≠ n % 8 ∧ (tcon.bit line.edge = false → line.request % 8 ≠ n % 8) := by
  obtain rfl | rfl | ⟨raised, rfl, edge⟩ := acknowledged_cases h
  · cases line <;> exact ⟨by decide, fun _ => by decide⟩
  · cases line <;> exact ⟨by decide, fun _ => by decide⟩
  · refine ⟨by cases line <;> cases raised <;> decide, fun level same => ?_⟩
    obtain rfl := RequestLine.request_injective same
    rw [edge] at level
    cases level

namespace Peripherals

/-- While a line is level-triggered its request is set exactly while its pin is low. -/
def Follows (p : Peripherals) (line : RequestLine) : Prop :=
  p.timers.control line.edge = false →
    p.timers.control line.request = !(p.pins .p3).bit line.pin

/-! ### Sampling -/

section

variable (t : Timers) (pins falling : Byte) (pin request edge : Nat)

theorem control_sampleRequest_of_ne {m : Nat} (h : m % 8 ≠ request % 8) :
    (sampleRequest t pins falling pin request edge).control m = t.control m := by
  unfold sampleRequest
  split
  · exact t.control_raise_of_ne h _
  · rw [Timers.control_setControl, if_neg h]

theorem control_sampleRequest_of_level (level : t.control edge = false) :
    (sampleRequest t pins falling pin request edge).control request = !pins.bit pin := by
  unfold sampleRequest
  rw [level, if_neg Bool.false_ne_true, Timers.control_setControl, if_pos rfl]

/-- Without an edge there is nothing to sample where the request follows the pin. -/
theorem sampleRequest_zero
    (follows : t.control edge = false → t.control request = !pins.bit pin) :
    sampleRequest t pins 0 pin request edge = t := by
  unfold sampleRequest
  split
  · rw [Byte.bit_zero]
    rfl
  · next level =>
    rw [← follows (Bool.eq_false_iff.2 level)]
    exact t.setControl_control request

end

theorem follows_sampleRequests (p : Peripherals) (falling : Byte) (line : RequestLine) :
    (p.sampleRequests falling).Follows line := by
  intro level
  let pins := p.pins .p3
  let t := sampleRequest p.timers pins falling PinOfP3.int0 Tcon.ie0 Tcon.it0
  cases line with
  | int0 =>
    -- sampling the other line changes neither bit of this one
    have edge : t.control Tcon.it0 = false := by
      rw [← level]
      exact (control_sampleRequest_of_ne t pins falling _ _ _ (by decide)).symm
    have edge' : p.timers.control Tcon.it0 = false := by
      rw [← edge]
      exact (control_sampleRequest_of_ne p.timers pins falling _ _ _ (by decide)).symm
    exact (control_sampleRequest_of_ne t pins falling _ _ _ (by decide)).trans
      (control_sampleRequest_of_level p.timers pins falling _ _ _ edge')
  | int1 =>
    have edge : t.control Tcon.it1 = false := by
      rw [← level]
      exact (control_sampleRequest_of_ne t pins falling _ _ _ (by decide)).symm
    exact control_sampleRequest_of_level t pins falling _ _ _ edge

theorem sampleRequests_zero {p : Peripherals} (follows : ∀ line, p.Follows line) :
    p.sampleRequests 0 = p := by
  have first : sampleRequest p.timers (p.pins .p3) 0 PinOfP3.int0 Tcon.ie0 Tcon.it0 = p.timers :=
    sampleRequest_zero _ _ _ _ _ (follows .int0)
  have second : sampleRequest p.timers (p.pins .p3) 0 PinOfP3.int1 Tcon.ie1 Tcon.it1 = p.timers :=
    sampleRequest_zero _ _ _ _ _ (follows .int1)
  unfold sampleRequests
  dsimp only
  rw [first, second]

/-- To acknowledge an interrupt leaves the requests alone that follow their pins. -/
theorem Follows.acknowledge {p : Peripherals} {line : RequestLine} (h : p.Follows line)
    {i : Interrupt} {n : Nat} (acknowledged : i.acknowledged? p.timers.tcon = some n) :
    ({ p with timers := p.timers.setControl n false } : Peripherals).Follows line := by
  obtain ⟨edge, request⟩ := Interrupt.acknowledged_ne acknowledged line
  intro level
  replace level : (p.timers.setControl n false).control line.edge = false := level
  rw [Timers.control_setControl, if_neg edge] at level
  show (p.timers.setControl n false).control line.request = _
  rw [Timers.control_setControl, if_neg (request level)]
  exact h level

end Peripherals

/-! ## Outside levels -/

/-- Nothing outside holds an interrupt pin or the switch of the display low. -/
structure PortBytes.PulledUp (outside : PortBytes) : Prop where
  switch : outside.p1.bit 6 = true
  lines : ∀ line : RequestLine, outside.p3.bit line.pin = true

/-- After a reset all latches are high and nothing is requested. -/
theorem Peripherals.follows_reset {p : Peripherals} (h : p.outside.PulledUp) (line : RequestLine) :
    p.reset.Follows line := by
  intro _
  have idle : p.reset.timers.control line.request = false := Byte.bit_zero _
  have high : (p.reset.pins .p3).bit line.pin = true := by
    show ((0xFF : Byte) &&& p.outside.p3).bit line.pin = true
    rw [Byte.bit_and, h.lines line]
    cases line <;> decide
  rw [idle, high]
  rfl

/-- Of the pins only the line of the sequential keyboard is driven by a key. -/
theorem Key.position_of_port3 {key : Key} (h : key.bit.register = .port3) :
    key.bit.position = 5 := by
  cases key with
  | sequential key => rfl
  | matrix key =>
    cases key with
    | digit d =>
      replace h : (MatrixKey.digit d).bit.register = .port3 := h
      unfold MatrixKey.bit at h
      dsimp only at h
      split at h <;> cases h
    | _ => cases h

namespace Dsm51

/-- A program cannot change what the outside drives. -/
theorem busesKeep_outside (outside : PortBytes) :
    BusesKeep (fun (_ : ExternalData) (p : Peripherals) => p.outside = outside) where
  external _ _ _ _ h := h
  register _ p a v h := by
    show (p.write a v).outside = outside
    unfold Peripherals.write
    split
    · exact h
    · split <;> exact h

theorem outside_step (d : Dsm51) :
    (d.chip.step d.code.read).1.registers.outside = d.peripherals.outside :=
  (busesKeep_outside d.peripherals.outside).step d.code.read (c := d.chip) rfl

theorem pulledUp_drive {d : Dsm51} (h : d.peripherals.outside.PulledUp) (key : Key) (down : Bool) :
    (d.drive key.bit down).peripherals.outside.PulledUp := by
  unfold drive
  split
  · exact h
  · exact h
  · next port3 =>
    refine ⟨h.switch, fun line => ?_⟩
    show (d.peripherals.outside.p3.setBit key.bit.position down).bit line.pin = true
    rw [Key.position_of_port3 port3, Byte.bit_setBit, if_neg (by cases line <;> decide)]
    exact h.lines line

/-! ## Settled boards -/

/-- While the display is on, the selected digits show the segments of the display register. -/
def Shown (d : Dsm51) : Prop :=
  d.displayEnabled →
    ∀ column : Fin 6, d.external.devices.csds.bit column →
      d.display[column] = d.external.devices.csdb

/-- Nothing is shown before the program switches the display on. -/
theorem shown_of_off {d : Dsm51} (off : d.peripherals.latches = .uniform 0xFF) : d.Shown := by
  intro on
  unfold displayEnabled at on
  rw [off] at on
  exact absurd on (by decide)

theorem shown_latchDisplay (d : Dsm51) : d.latchDisplay.Shown := by
  unfold latchDisplay
  split
  · intro _ column selected
    replace selected : d.external.devices.csds.bit column = true := selected
    simp [selected]
    rfl
  · next off => exact fun on => absurd on off

theorem latchDisplay_of_shown {d : Dsm51} (h : d.Shown) : d.latchDisplay = d := by
  unfold latchDisplay
  split
  · next on =>
    have same : (d.display.mapIdx fun digit shown =>
        if d.external.devices.csds.bit digit then d.external.devices.csdb else shown) =
        d.display := by
      refine Vector.ext fun digit hd => ?_
      rw [Vector.getElem_mapIdx]
      split
      · next selected => exact (h on ⟨digit, hd⟩ selected).symm
      · rfl
    rw [same]
  · rfl

/-- All that follows from the pins and the display registers is up to date, and nothing outside
holds the pins low. -/
structure Settled (d : Dsm51) : Prop where
  outside : d.peripherals.outside.PulledUp
  follows : ∀ line, d.peripherals.Follows line
  shown : d.Shown

/-- Nothing is left to refresh. -/
theorem Settled.refresh {d : Dsm51} (h : d.Settled) : d.refresh = d := by
  unfold Dsm51.refresh
  rw [Peripherals.sampleRequests_zero h.follows]
  exact latchDisplay_of_shown h.shown

/-- A board that has sampled its pins and latched its display is settled. -/
theorem settled_sample (d : Dsm51) {p : Peripherals} (h : p.outside.PulledUp) (falling : Byte) :
    ((d.setPeripherals (p.sampleRequests falling)).latchDisplay).Settled := by
  have shown := shown_latchDisplay (d.setPeripherals (p.sampleRequests falling))
  obtain ⟨display, latched⟩ := (d.setPeripherals (p.sampleRequests falling)).latchDisplay_eq
  rw [latched] at shown ⊢
  exact ⟨h, p.follows_sampleRequests falling, shown⟩

theorem settled_new (format : ImageFormat) : (new format).Settled := by
  have fresh : (new format).peripherals = ({} : Peripherals).reset := rfl
  have outside : ({} : Peripherals).outside.PulledUp :=
    ⟨by decide, fun line => by cases line <;> decide⟩
  constructor
  case outside =>
    rw [fresh]
    exact outside
  case follows =>
    rw [fresh]
    exact Peripherals.follows_reset outside
  case shown => exact shown_of_off (congrArg Peripherals.latches fresh)

/-- A reset leaves the pins high, since nothing outside holds them low, and the display off. -/
theorem Settled.clearWorking {d : Dsm51} (h : d.Settled) : d.clearWorking.Settled :=
  ⟨h.outside, Peripherals.follows_reset h.outside, shown_of_off rfl⟩

theorem Settled.load {d : Dsm51} (h : d.Settled) (file : List Byte) : (d.load file).1.Settled := by
  unfold Dsm51.load
  split
  · exact ⟨h.outside, h.follows, h.shown⟩
  · exact h

/-- A step that fails has cleared no request that follows its pin. -/
theorem Settled.takeInterrupt {d : Dsm51} (h : d.Settled) :
    ({ d with chip := d.chip.takeInterrupt.1 } : Dsm51).Settled := by
  have external := d.chip.external_takeInterrupt
  have registers := d.chip.registers_takeInterrupt
  generalize d.chip.takeInterrupt.1 = chip at external registers
  obtain ⟨core, x, p⟩ := chip
  replace external : x = d.external := external
  subst external
  obtain same | ⟨i, n, acknowledged, cleared⟩ := registers
  · replace same : p = d.peripherals := same
    subst same
    exact ⟨h.outside, h.follows, h.shown⟩
  · replace cleared : p = { d.peripherals with timers := d.peripherals.timers.setControl n false } :=
      cleared
    subst cleared
    exact ⟨h.outside, fun line => (h.follows line).acknowledge acknowledged, h.shown⟩

/-- A board settles with every instruction that it executes, whatever the instruction did. -/
theorem settled_settle {d : Dsm51} (h : d.peripherals.outside.PulledUp) (cycles : Nat) :
    (d.settle cycles).Settled := by
  let p := d.peripherals
  have sampled := settled_sample d
    (p := { p with timers := p.timers.tick (d.timerInputs cycles) }) h d.fallen
  exact ⟨sampled.outside, sampled.follows, sampled.shown⟩

theorem Settled.step {d : Dsm51} (h : d.Settled) : (Machine.step d).1.Settled := by
  obtain ⟨chip, cycles, executed, after, -⟩ | ⟨chip, e, failed, after, -⟩ :=
    step_cases (Prod.eta (Machine.step d)).symm
  · have outside := outside_step d
    rw [executed] at outside
    rw [after]
    refine settled_settle ?_ cycles
    show chip.registers.outside.PulledUp
    rw [outside]
    exact h.outside
  · rw [after, Chip.step_error failed]
    exact h.takeInterrupt

/-- Whatever happens on a workbench, a settled board stays settled. -/
theorem keysKeep_settled : Workbench.KeysKeep Settled where
  step _ h := h.step
  clearAll d _ := settled_new d.format
  load _ file h := h.load file
  clearWorking _ h := h.clearWorking
  press _ key down h := settled_sample _ (pulledUp_drive h.outside key down) 0
  refresh _ h := settled_sample _ h.outside 0

/-! ## The panel of a board -/

theorem enables_display {d : Dsm51} (h : d.peripherals.outside.PulledUp) (space : MemorySpace) :
    (Panel.ofReading (.take d space)).enables.display = !d.peripherals.latches.p1.bit 6 := by
  show (!(d.peripherals.latches.p1 &&& d.peripherals.outside.p1).bit 6) = _
  rw [Byte.bit_and, h.switch, Bool.and_true]

/-- The digits of the panel are those of the board from right to left. -/
theorem digits_getElem? (d : Dsm51) (space : MemorySpace) (column : Fin 6) :
    (Panel.ofReading (.take d space)).digits[5 - column.val]? =
      some (Digit.ofByte d.display[column]) := by
  show (d.display.toList.reverse.map Digit.ofByte)[5 - column.val]? = _
  have length : d.display.toList.length = 6 := d.display.length_toList
  have position : d.display.toList.length - 1 - (5 - column.val) = column.val := by omega
  rw [List.getElem?_map, List.getElem?_reverse (by omega), position]
  simp

end Dsm51

/-! ## Every session -/

namespace Workbench

/-- **What follows from the pins and the display registers is always up to date.**  After every
script the request of a level-triggered interrupt is set exactly while its pin is low, the panel
shows the display on exactly while the latch of its switch is low, and then every selected digit
shows the segments of the display register.  A refresh leaves the board as it is. -/
theorem settled_after_new (format : ImageFormat) (lister : Lister) (s : Settings)
    (script : Script) :
    let w := (new (Dsm51.new format) lister s).after script
    let d := w.machine
    (∀ line : RequestLine, d.peripherals.timers.control line.edge = false →
      (d.peripherals.timers.control line.request = true ↔
        (d.peripherals.pins .p3).bit line.pin = false)) ∧
    w.panel.enables.display = !d.peripherals.latches.p1.bit 6 ∧
    (w.panel.enables.display = true → ∀ column : Fin 6,
      d.external.devices.csds.bit column = true →
        w.panel.digits[5 - column.val]? = some (.ofByte d.external.devices.csdb)) ∧
    Machine.refresh d = d := by
  intro w d
  have settled : d.Settled :=
    Dsm51.keysKeep_settled.after (new (Dsm51.new format) lister s) (Dsm51.settled_new format) script
  have current : w.panel = Panel.ofReading (.take d w.space) :=
    (current_after_new (Dsm51.new format) lister s script).panel
  have display : w.panel.enables.display = !d.peripherals.latches.p1.bit 6 := by
    rw [current]
    exact Dsm51.enables_display settled.outside w.space
  refine ⟨?_, display, ?_, settled.refresh⟩
  · intro line level
    rw [settled.follows line level, Bool.not_eq_true']
  · intro on column selected
    rw [display] at on
    rw [current, Dsm51.digits_getElem?, settled.shown on column selected]

/-- Switches the display on, pulls the pin of interrupt 0 low and lets the first digit show a zero:
`CLR P1.6`, `CLR P3.2`, `MOV DPTR,#FF30h`, `MOV A,#1`, `MOVX @DPTR,A`, `MOV DPTR,#FF38h`,
`MOV A,#3Fh`, `MOVX @DPTR,A`. -/
def litProgram : List Byte :=
  [0xC2, 0x96, 0xC2, 0xB2, 0x90, 0xFF, 0x30, 0x74, 0x01, 0xF0, 0x90, 0xFF, 0x38, 0x74, 0x3F, 0xF0]

/-- What the board of `litProgram` holds, whatever the code memory around the program is. -/
theorem machine_after_lit :
    ∃ (d : Dsm51) (code : Store64K Byte),
      ((new (Dsm51.new .binary) (Dsm51.lister .binary) {}).after
        ((0, .command (.load litProgram)) :: steps 8)).machine = { d with code } ∧
      d.peripherals.timers.control Tcon.it0 = false ∧
      (d.peripherals.pins .p3).bit PinOfP3.int0 = false ∧
      d.peripherals.latches.p1.bit 6 = false ∧
      d.external.devices.csds = 0x01 ∧ d.external.devices.csdb = 0x3F := by
  have facts : ((Dsm51.new .binary).advanceOn? (blankCode litProgram) 8).map (fun d =>
      (d.peripherals.timers.control Tcon.it0, (d.peripherals.pins .p3).bit PinOfP3.int0,
        d.peripherals.latches.p1.bit 6, d.external.devices.csds, d.external.devices.csdb)) =
      some (false, false, false, 0x01, 0x3F) := by decide +kernel
  obtain ⟨d, advanced, values⟩ := Option.map_eq_some_iff.1 facts
  simp only [Prod.mk.injEq] at values
  obtain ⟨code, ready⟩ := ready_program {} rfl (by decide) advanced
  exact ⟨d, code, ready.machine, values⟩

/-- The digit is lit and the interrupt requested as soon as the program has said so. -/
theorem settled_after_new_lit :
    let w := (new (Dsm51.new .binary) (Dsm51.lister .binary) {}).after
      ((0, .command (.load litProgram)) :: steps 8)
    let d := w.machine
    d.peripherals.timers.control Tcon.it0 = false ∧
      d.peripherals.timers.control Tcon.ie0 = true ∧
      w.panel.enables.display = true ∧ d.external.devices.csds.bit 0 = true ∧
      w.panel.digits[5]? = some (.ofByte 0x3F) ∧ Machine.refresh d = d := by
  have stated := settled_after_new .binary (Dsm51.lister .binary) {}
    ((0, .command (.load litProgram)) :: steps 8)
  obtain ⟨d, code, machine, level, low, latch, csds, csdb⟩ := machine_after_lit
  -- From here on the run is only a workbench with a known board: the script is not evaluated.
  generalize (new (Dsm51.new .binary) (Dsm51.lister .binary) {}).after
    ((0, .command (.load litProgram)) :: steps 8) = w at stated machine ⊢
  obtain ⟨requests, display, digits, same⟩ := stated
  rw [machine] at requests display digits same
  have requested : d.peripherals.timers.control Tcon.ie0 = true := (requests .int0 level).2 low
  have on : w.panel.enables.display = true := by
    rw [display]
    exact congrArg not latch
  have selected : d.external.devices.csds.bit (0 : Fin 6).val = true := by
    rw [csds]
    decide
  have digit : w.panel.digits[5]? = some (.ofByte d.external.devices.csdb) := digits on 0 selected
  rw [csdb] at digit
  show w.machine.peripherals.timers.control Tcon.it0 = false ∧ _
  rw [machine]
  exact ⟨level, requested, on, selected, digit, same⟩

end Workbench

end Trainer51
