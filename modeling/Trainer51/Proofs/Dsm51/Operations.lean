import Trainer51.Proofs.Dsm51.Load
import Trainer51.Proofs.Dsm51.Settled

/-!
# What can be done to a board

A board is stepped and loaded, its inputs are driven, and it is refreshed and reset; who builds one
into a test also writes its registers and its code directly.  `Dsm51.after` does any of this in any
order.

    p d → (every operation keeps p) → p (d.after script)                      (after_of_keep)
    d.step = (d', .ok cycles) ↔ the chip has executed an instruction and the board has caught up
                                                                              (step_eq_ok_iff)
    no operation changes the format of a board or what the outside does to ports 0, 1 and 2
                                                                              (asBuilt_after)
-/

namespace Trainer51

/-- What can be done to a board. -/
inductive BoardOperation where
  /-- Execute one instruction. -/
  | step
  | load (file : List Byte)
  | writeCode (address : Word) (bytes : List Byte)
  | writeSfr (address value : Byte)
  /-- Put other values into the registers and the memory of the core. -/
  | setCore (core : Core)
  | drive (bit : InputBit) (on : Bool)
  | refresh
  /-- Switch the board off and on again. -/
  | clearAll
  /-- Reset the chip and the display. -/
  | clearWorking

/-- Whether the board starts over. -/
def BoardOperation.isReset : BoardOperation → Bool
  | clearAll | clearWorking => true
  | _ => false

namespace Dsm51

def perform (d : Dsm51) : BoardOperation → Dsm51
  | .step => d.step.1
  | .load file => (d.load file).1
  | .writeCode address bytes => d.writeCode address bytes
  | .writeSfr address value => d.writeSfr address value
  | .setCore core => d.setCore core
  | .drive bit on => d.drive bit on
  | .refresh => d.refresh
  | .clearAll => .new d.format
  | .clearWorking => d.clearWorking

/-- The board that a script leaves, the steps and loads that failed included. -/
def after (d : Dsm51) (script : List BoardOperation) : Dsm51 := script.foldl perform d

theorem after_cons (d : Dsm51) (operation : BoardOperation) (script : List BoardOperation) :
    d.after (operation :: script) = (d.perform operation).after script := rfl

theorem after_append (d : Dsm51) (script later : List BoardOperation) :
    d.after (script ++ later) = (d.after script).after later :=
  List.foldl_append

/-- What every operation keeps holds after every script. -/
theorem after_of_keep {p : Dsm51 → Prop} (keep : ∀ d operation, p d → p (d.perform operation))
    (d : Dsm51) (h : p d) (script : List BoardOperation) : p (d.after script) := by
  induction script generalizing d with
  | nil => exact h
  | cons operation script ih => exact ih _ (keep d operation h)

/-! ## Steps and refreshes -/

theorem step_of_ok {d : Dsm51} {chip : Chip ExternalData Peripherals} {cycles : Nat}
    (h : d.chip.step d.code.read = (chip, .ok cycles)) :
    d.step = (({ d with chip } : Dsm51).settle cycles, .ok cycles) := by
  simp only [step, h]

theorem step_of_error {d : Dsm51} {chip : Chip ExternalData Peripherals} {e : IllegalOpcode}
    (h : d.chip.step d.code.read = (chip, .error e)) : d.step = ({ d with chip }, .error e) := by
  simp only [step, h]

theorem step_eq_ok_iff {d d' : Dsm51} {cycles : Nat} :
    d.step = (d', .ok cycles) ↔
      ∃ chip, d.chip.step d.code.read = (chip, .ok cycles) ∧
        d' = ({ d with chip } : Dsm51).settle cycles := by
  constructor
  · intro h
    cases hc : d.chip.step d.code.read with
    | mk chip result =>
      cases result with
      | ok n =>
        rw [step_of_ok hc] at h
        cases h
        exact ⟨chip, rfl, rfl⟩
      | error e =>
        rw [step_of_error hc] at h
        cases h
  · rintro ⟨chip, hc, rfl⟩
    exact step_of_ok hc

/-- A machine step is a step of the board whose time nobody asks for. -/
theorem machine_step (d : Dsm51) : (Machine.step d).1 = d.step.1 := by
  show d.stepOnce.1 = d.step.1
  unfold stepOnce
  split
  · next h => rw [h]
  · next h => rw [h]

/-- Catching up with an instruction changes the timers, the display and what is kept for the next
one. -/
theorem settle_eq (d : Dsm51) (cycles : Nat) :
    ∃ display, d.settle cycles =
      { d.setPeripherals (Peripherals.sampleRequests
          { d.peripherals with
            timers := d.peripherals.timers.tick (d.timerInputs cycles) } d.fallen) with
        display
        lastP3 := d.peripherals.pins .p3
        cycles := d.cycles + cycles } := by
  obtain ⟨display, latched⟩ := latchDisplay_eq (d.setPeripherals _)
  unfold settle
  dsimp only
  rw [latched]
  exact ⟨display, rfl⟩

/-- A refresh looks at the levels of the interrupt pins and changes the display. -/
theorem refresh_eq (d : Dsm51) :
    ∃ display, d.refresh =
      { d.setPeripherals (d.peripherals.sampleRequests 0) with display } := by
  obtain ⟨display, latched⟩ := latchDisplay_eq (d.setPeripherals (d.peripherals.sampleRequests 0))
  unfold refresh
  rw [latched]
  exact ⟨display, rfl⟩

/-! ## What no operation changes -/

/-- The board takes files of one format, and the outside leaves every port but port 3 alone. -/
structure AsBuilt (format : ImageFormat) (d : Dsm51) : Prop where
  format : d.format = format
  outside : d.peripherals.outside =
    { PortBytes.uniform 0xFF with p3 := d.peripherals.outside.p3 }

theorem AsBuilt.congr {format : ImageFormat} {d d' : Dsm51} (h : d.AsBuilt format)
    (sameFormat : d'.format = d.format)
    (sameOutside : d'.peripherals.outside = d.peripherals.outside) : d'.AsBuilt format where
  format := sameFormat.trans h.format
  outside := by
    rw [sameOutside]
    exact h.outside

theorem asBuilt_new (format : ImageFormat) : (new format).AsBuilt format := ⟨rfl, rfl⟩

theorem format_step_fst (d : Dsm51) : d.step.1.format = d.format := by
  rw [← machine_step]
  exact d.format_step

theorem outside_step_fst (d : Dsm51) : d.step.1.peripherals.outside = d.peripherals.outside := by
  have outside := d.outside_step
  cases hc : d.chip.step d.code.read with
  | mk chip result =>
    rw [hc] at outside
    cases result with
    | ok cycles =>
      rw [step_of_ok hc]
      obtain ⟨display, settled⟩ := settle_eq { d with chip } cycles
      rw [settled]
      exact outside
    | error e =>
      rw [step_of_error hc]
      exact outside

theorem outside_writeSfr (d : Dsm51) (a v : Byte) :
    (d.writeSfr a v).peripherals.outside = d.peripherals.outside :=
  (busesKeep_outside d.peripherals.outside).writeSfr (c := d.chip) rfl a v

theorem AsBuilt.drive {format : ImageFormat} {d : Dsm51} (h : d.AsBuilt format) (bit : InputBit)
    (on : Bool) : (d.drive bit on).AsBuilt format := by
  unfold Dsm51.drive
  split
  · exact h.congr rfl rfl
  · exact h.congr rfl rfl
  · let p3 := d.peripherals.outside.p3.setBit bit.position on
    exact ⟨h.format, congrArg (fun outside : PortBytes => { outside with p3 }) h.outside⟩

theorem AsBuilt.perform {format : ImageFormat} {d : Dsm51} (h : d.AsBuilt format)
    (operation : BoardOperation) : (d.perform operation).AsBuilt format := by
  cases operation with
  | step => exact h.congr d.format_step_fst d.outside_step_fst
  | load file =>
    show (d.load file).1.AsBuilt format
    unfold Dsm51.load
    split
    · exact h.congr rfl rfl
    · exact h
  | writeCode | setCore | clearWorking => exact h.congr rfl rfl
  | writeSfr a v => exact h.congr rfl (d.outside_writeSfr a v)
  | drive bit on => exact h.drive bit on
  | refresh =>
    obtain ⟨display, refreshed⟩ := d.refresh_eq
    show d.refresh.AsBuilt format
    rw [refreshed]
    exact h.congr rfl rfl
  | clearAll =>
    show (new d.format).AsBuilt format
    rw [h.format]
    exact asBuilt_new format

theorem asBuilt_after (format : ImageFormat) (script : List BoardOperation) :
    ((new format).after script).AsBuilt format :=
  after_of_keep (fun _ operation h => h.perform operation) _ (asBuilt_new format) script

end Dsm51

end Trainer51
