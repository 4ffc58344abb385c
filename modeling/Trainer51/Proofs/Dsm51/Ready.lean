import Trainer51.Proofs.Dsm51.Load
import Trainer51.Proofs.Workbench.Stepping

/-!
# Stepping a board that has been loaded

A board with a program and no run in progress executes one instruction with every step.  The code
memory of a loaded board is too large to run such a board inside a proof; what a short program does
is found out on code that is blank beside the program, and holds of the loaded board.

    Machine.advance? d n = some d' → n steps of a ready board lead to d'          (Ready.steps)
    a board takes n steps as it would with the code from elsewhere    (Dsm51.advance?_withCode)
    the code of a loaded program is the program and nothing else                 (read_program)
    the board that has loaded a program and taken some steps                    (ready_program)
-/

namespace Trainer51

namespace Workbench

/-- A program has been loaded into a board, and no run is in progress. -/
structure Ready (w : Workbench Dsm51) (d : Dsm51) : Prop where
  machine : w.machine = d
  program : w.listing.isEmpty = false
  idle : w.run = .idle

theorem Ready.step_eq {w : Workbench Dsm51} {d : Dsm51} (h : w.Ready d) : w.step = w.execute :=
  step_eq_execute h.program h.idle

theorem Ready.step_ok {w : Workbench Dsm51} {d d' : Dsm51} (h : w.Ready d)
    (hd : Machine.step d = (d', .ok ())) :
    w.step.bench.Ready d' ∧ w.step.bench.cursor.current = Machine.pc d' := by
  have hw : Machine.step w.machine = (d', .ok ()) := by rw [h.machine, hd]
  rw [h.step_eq, execute_ok hw]
  exact ⟨⟨rfl, h.program, h.idle⟩, rfl⟩

theorem Ready.step_error {w : Workbench Dsm51} {d d' : Dsm51} {e : MachineError} (h : w.Ready d)
    (hd : Machine.step d = (d', .error e)) :
    w.step.bench.machine = d' ∧ w.step.bench.cursor = w.cursor := by
  have hw : Machine.step w.machine = (d', .error e) := by rw [h.machine, hd]
  rw [h.step_eq, execute_error hw]
  exact ⟨rfl, rfl⟩

/-- Steps of which none fails. -/
theorem Ready.steps {w : Workbench Dsm51} {d d' : Dsm51} {n : Nat} (h : w.Ready d)
    (ok : Machine.advance? d n = some d') : (w.after (steps n)).Ready d' := by
  induction n generalizing w d with
  | zero =>
    cases ok
    exact h
  | succ n ih =>
    obtain ⟨d₁, first, ok⟩ := Machine.step_of_advance? ok
    exact ih (h.step_ok first).1 ok

/-- Loading a file makes a board ready to execute it. -/
theorem ready_load {w : Workbench Dsm51} {file : List Byte} {image : Image}
    (lister : w.lister = Dsm51.lister w.machine.format)
    (h : Image.parse w.machine.format file = .ok image) :
    (w.load file).bench.Ready { Dsm51.new w.machine.format with code := image.memory } := by
  rw [load_of_parse lister h]
  have rows : image.rows ≠ [] := image.rows_ne_nil (Image.toList_parse h)
  exact ⟨rfl, by simpa [announce, reread, followPc, Listing.isEmpty, Listing.ofRows], rfl⟩

end Workbench

namespace Dsm51

/-- A board after a number of steps, none of which fails, that takes its code from elsewhere. -/
def advanceOn? (code : Word → Byte) (d : Dsm51) : Nat → Option Dsm51
  | 0 => some d
  | n + 1 =>
    match d.stepOn code with
    | (d, none) => d.advanceOn? code n
    | (_, some _) => none

theorem advance?_withCode (d : Dsm51) (code : Store64K Byte) (n : Nat) :
    Machine.advance? { d with code } n = (d.advanceOn? code.read n).map ({ · with code }) := by
  induction n generalizing d with
  | zero => rfl
  | succ n ih =>
    rw [Machine.advance?, step_eq_stepOn, advanceOn?]
    cases d.stepOn code.read with
    | mk d₁ failed =>
      cases failed with
      | none => exact ih d₁
      | some e => rfl

end Dsm51

/-- The bytes of a program from address zero on, in blank program memory. -/
def blankCode (program : List Byte) (a : Word) : Byte := program.getD a.toNat 0

theorem read_program {program : List Byte} (h : program.length ≤ 0x10000) :
    (Image.empty.write 0 program).memory.read = blankCode program := by
  funext a
  rw [Image.read_memory, Image.get?_write _ _ _ _ h, Image.get?_empty]
  simp [blankCode]

/-- A board that has loaded a program and taken some steps, found out on blank code. -/
theorem Workbench.ready_program (s : Settings) {program : List Byte} {n : Nat} {d : Dsm51}
    (parsed : Image.parse .binary program = .ok (Image.empty.write 0 program))
    (short : program.length ≤ 0x10000)
    (run : (Dsm51.new .binary).advanceOn? (blankCode program) n = some d) :
    ∃ code, ((new (Dsm51.new .binary) (Dsm51.lister .binary) s).after
      ((0, .command (.load program)) :: steps n)).Ready { d with code } := by
  let code := (Image.empty.write 0 program).memory
  have loaded : ((new (Dsm51.new .binary) (Dsm51.lister .binary) s).load program).bench.Ready
      { Dsm51.new .binary with code } := ready_load rfl parsed
  refine ⟨code, loaded.steps ?_⟩
  rw [Dsm51.advance?_withCode, read_program short, run]
  rfl

end Trainer51
