import Trainer51.Proofs.Dsm51.Ready
import Trainer51.Proofs.Workbench.View

/-!
# The mark of execution

The workbench keeps the address of the next instruction as a mark in the listing, the chip as its
program counter, and the panel shows it.  The panel always shows the program counter.  The mark is
moved to it by a load, a reset and every step that succeeds, but not by a step that fails.  Such a
step may have moved the program counter: it takes a pending interrupt before it meets a reserved
opcode.  From then on execution is away from the mark, at the vector of that interrupt.

    the program counter is at the vector of a step that failed, else at the mark  (pcAt_awayAfter)
    the mark is at the program counter ↔ it is not away from the mark             (mark_after_new)
-/

namespace Trainer51

/-! ## What leaves the program counter alone -/

namespace Dsm51

theorem pc_refresh (d : Dsm51) : Machine.pc (Machine.refresh d) = Machine.pc d := by
  show d.refresh.core.pc = d.core.pc
  unfold refresh
  obtain ⟨display, h⟩ := (d.setPeripherals (d.peripherals.sampleRequests 0)).latchDisplay_eq
  rw [h]
  rfl

theorem pc_drive (d : Dsm51) (key : Key) (down : Bool) :
    Machine.pc (HeldKeys.drive d key down) = Machine.pc d := by
  refine (pc_refresh _).trans ?_
  show (d.drive key.bit down).core.pc = d.core.pc
  unfold drive
  split <;> rfl

end Dsm51

/-! ## Away from the mark -/

namespace Workbench

/-- Where execution is away from the mark, after a change that a board in state `d` announces: a
step that fails takes it to an interrupt routine, and everything that moves the mark takes the mark
to it. -/
def awayOn (d : Dsm51) (a : Option Word) : Change → Option Word
  | .halted _ => d.vector?.or a
  | .stepped _ | .loaded _ | .reset => none
  | _ => a

/-- Where execution is away from the mark after a script, if it was at the mark or at `a` before. -/
def awayAfter (w : Workbench Dsm51) (a : Option Word) : Script → Option Word
  | [] => a
  | o :: script =>
    let outcome := w.perform o.1 o.2
    outcome.bench.awayAfter (outcome.changes.foldl (awayOn w.machine) a) script

theorem foldl_awayOn_released (d : Dsm51) (a : Option Word) (keys : List Key) :
    (keys.map Change.keyReleased).foldl (awayOn d) a = a := by
  induction keys with
  | nil => rfl
  | cons key keys ih => exact ih

/-- The program counter is at `a`, or else at the mark. -/
def PcAt (w : Workbench Dsm51) (a : Option Word) : Prop :=
  Machine.pc w.machine = a.getD w.cursor.current

theorem Move.pcAt {w : Workbench Dsm51} {o : Outcome Dsm51 (Except BenchError Unit)}
    (move : Move w o) {a : Option Word} (h : w.PcAt a) :
    o.bench.PcAt (o.changes.foldl (awayOn w.machine) a) := by
  cases move with
  | loaded | unloaded | stepped | reset => rfl
  | halted machine e step =>
    show Machine.pc machine = (w.machine.vector?.or a).getD w.cursor.current
    rw [Dsm51.pc_of_step_error step, h, Option.getD_or]
  | nothing | begun | ended | spaceSelected | rowSelected | scrolled => exact h
  | refreshed => exact (Dsm51.pc_refresh _).trans h
  | pressed | released => exact (Dsm51.pc_drive _ _ _).trans h
  | allReleased =>
    have pc := foldl_drive (p := fun d => Machine.pc d = Machine.pc w.machine)
      (fun d key h => (Dsm51.pc_drive d key false).trans h) w.keys.keys w.machine rfl
    rw [foldl_awayOn_released]
    exact pc.trans h

theorem pcAt_awayAfter (w : Workbench Dsm51) (a : Option Word) (h : w.PcAt a) (script : Script) :
    (w.after script).PcAt (w.awayAfter a script) := by
  induction script generalizing w a with
  | nil => exact h
  | cons o script ih => exact ih _ _ ((move_perform w o.1 o.2).pcAt h)

end Workbench

/-- Sets a timer 0 request and enables the interrupt, but its routine is a reserved opcode. -/
def strayingProgram : List Byte := [0x75, 0xA8, 0x82, 0xD2, 0x8D, 0, 0, 0, 0, 0, 0, 0xA5]

/-- The board after a number of steps of `strayingProgram`, with blank program memory. -/
def straying : Nat → Dsm51
  | 0 => .new .binary
  | n + 1 => ((straying n).stepOn code).1
where
  code (a : Word) : Byte := strayingProgram.getD a.toNat 0

theorem read_strayingProgram :
    (Image.empty.write 0 strayingProgram).memory.read = straying.code :=
  read_program (by decide)

theorem straying_step (n : Nat) :
    Machine.step { straying n with code := (Image.empty.write 0 strayingProgram).memory } =
      ({ straying (n + 1) with code := (Image.empty.write 0 strayingProgram).memory },
        ((straying n).stepOn straying.code).2.elim (.ok ()) .error) := by
  rw [Dsm51.step_eq_stepOn, read_strayingProgram]
  rfl

/-! ## The mark after every script -/

namespace Workbench

/-- **The mark is at the program counter unless a step that failed took an interrupt**, and nothing
has moved the mark since.  The panel shows the program counter even then. -/
theorem mark_after_new (d : Dsm51) (lister : Lister) (s : Settings) (script : Script) :
    let w := (new d lister s).after script
    let pc := Machine.pc w.machine
    let away := (new d lister s).awayAfter none script
    w.panel.address = pc ∧
      w.panel.registers.head? = some (.word "PC" pc) ∧
      pc = away.getD w.cursor.current ∧
      (w.cursor.current = pc ↔ away = none ∨ away = some w.cursor.current) := by
  intro w pc away
  have current := current_after_new d lister s script
  have at_pc : pc = away.getD w.cursor.current := pcAt_awayAfter (new d lister s) none rfl script
  refine ⟨current.address, ?_, at_pc, ?_⟩
  · rw [current.panel]
    rfl
  · rw [at_pc]
    cases away with
    | none => simp
    | some a => simp [eq_comm]

theorem after_load_steps (w : Workbench Dsm51) (file : List Byte) :
    let step := (0, .command .step)
    w.after [(0, .command (.load file)), step, step, step] =
      (w.load file).bench.step.bench.step.bench.step.bench := rfl

/-- The step that takes the interrupt fails and leaves the mark behind. -/
theorem mark_left_behind :
    let step := (0, .command .step)
    let w := (new (Dsm51.new .binary) (Dsm51.lister .binary) {}).after
      [(0, .command (.load strayingProgram)), step, step, step]
    w.cursor.current = 0x05 ∧ Machine.pc w.machine = 0x0B ∧ w.panel.address = 0x0B := by
  intro step w
  have ok₀ : ((straying 0).stepOn straying.code).2 = none := by decide +kernel
  have ok₁ : ((straying 1).stepOn straying.code).2 = none := by decide +kernel
  have error₂ : ((straying 2).stepOn straying.code).2 = some (.illegalOpcode 0x0B 0xA5) := by
    decide +kernel
  have pc₂ : (straying 2).core.pc = 0x05 := by decide +kernel
  have pc₃ : (straying 3).core.pc = 0x0B := by decide +kernel
  have step₀ := straying_step 0
  have step₁ := straying_step 1
  have step₂ := straying_step 2
  rw [ok₀] at step₀
  rw [ok₁] at step₁
  rw [error₂] at step₂
  let start := new (Dsm51.new .binary) (Dsm51.lister .binary) {}
  have parsed : Image.parse .binary strayingProgram = .ok (Image.empty.write 0 strayingProgram) :=
    rfl
  have ready₀ : (start.load strayingProgram).bench.Ready _ := ready_load rfl parsed
  obtain ⟨ready₁, -⟩ := ready₀.step_ok step₀
  obtain ⟨ready₂, mark₂⟩ := ready₁.step_ok step₁
  obtain ⟨machine, cursor⟩ := ready₂.step_error step₂
  have current : w.Current := current_after_new _ _ _ _
  have run : w = _ := after_load_steps start strayingProgram
  have pc : Machine.pc w.machine = 0x0B := by
    rw [run, machine]
    exact pc₃
  refine ⟨?_, pc, ?_⟩
  · rw [run, cursor, mark₂]
    exact pc₂
  · rw [current.address]
    exact pc

end Workbench

end Trainer51
