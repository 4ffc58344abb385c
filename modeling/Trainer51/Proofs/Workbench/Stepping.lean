import Trainer51.Proofs.Dsm51.Step
import Trainer51.Proofs.Workbench.Ticks

/-!
# Running and stepping agree

A tick of a run and a single step find the machine by different ways, but do the same to it and to
all that is shown of it.  So a run that has had `n` ticks and `n` single steps differ only in the
run itself and the timer it took, and where a step fails both stop with the same error.

    execution takes no notice of the run                                    (execute_withoutRun)
    one tick and one step from workbenches in step                          (InStep.outcome_eq)
    `n` ticks and `n` steps from workbenches in step                        (InStep.after)
    ticks and steps of which the last fails                                 (InStep.after_halt)
-/

namespace Trainer51

/-- The outcome of an operation, less the run in progress. -/
def Outcome.withoutRun {M α : Type} (o : Outcome M α) : Outcome M α :=
  { o with bench := { o.bench with run := .idle, timersIssued := 0 } }

namespace Workbench

variable {M : Type} [Machine M]

/-- All of a workbench but its run and the count of its timers. -/
def withoutRun (w : Workbench M) : Workbench M := { w with run := .idle, timersIssued := 0 }

/-- A number of single steps. -/
def steps (n : Nat) : Script := List.replicate n (0, .command .step)

theorem steps_succ (n : Nat) : steps (n + 1) = steps n ++ [(0, .command .step)] :=
  List.replicate_succ'

/-- What a step that succeeds adds to a log. -/
def stepEntry (pc : Word) : List Change × Except BenchError Unit := ([.stepped pc], .ok ())

/-- What a step that fails adds to a log. -/
def haltEntry (e : MachineError) : List Change × Except BenchError Unit :=
  ([.halted e], .error (.halted e))

/-! ## One tick and one step -/

theorem execute_withoutRun (w : Workbench M) :
    w.execute.withoutRun = w.withoutRun.execute.withoutRun := by
  cases h : Machine.step w.machine with
  | mk m result =>
    have h' : Machine.step w.withoutRun.machine = (m, result) := h
    cases result with
    | ok =>
      rw [execute_ok h, execute_ok h']
      rfl
    | error e =>
      rw [execute_error h, execute_error h']
      rfl

/-- With a program and no run in progress a step executes an instruction. -/
theorem step_eq_execute {w : Workbench M} (program : w.listing.isEmpty = false)
    (idle : w.run = .idle) : w.step = w.execute := by
  unfold step
  rw [if_neg]
  simp [program, mode, idle, RunState.mode]

/-- A running workbench and an idle one with a program, alike but for the run. -/
structure InStep (handle : Nat) (r w : Workbench M) : Prop where
  running : ∃ timer, r.run = .running timer ∧ timer.handle = handle
  idle : w.run = .idle
  program : w.listing.isEmpty = false
  alike : r.withoutRun = w.withoutRun

variable {handle : Nat} {r w : Workbench M}

omit [Machine M] in
theorem InStep.machine (h : InStep handle r w) : r.machine = w.machine := by
  have same : r.withoutRun.machine = w.withoutRun.machine := by rw [h.alike]
  exact same

theorem InStep.step_eq (h : InStep handle r w) : w.step = w.execute :=
  step_eq_execute h.program h.idle

/-- A tick of the running one executes an instruction; its timer may have been set anew. -/
theorem InStep.perform_eq (h : InStep handle r w) {now : Nat} {operation : Operation}
    (tick : r.delivers handle now operation) :
    ∃ v, InStep handle v w ∧ r.perform now operation = v.execute := by
  obtain ⟨timer, running, rfl⟩ := h.running
  have ht : r.run.timer? = some timer := by rw [running]; rfl
  obtain ⟨timer', own, performed⟩ := perform_of_delivers ht tick
  refine ⟨{ r with run := .running timer' }, ⟨⟨timer', rfl, own⟩, h.idle, h.program, h.alike⟩, ?_⟩
  rw [performed, running]
  rfl

/-- Both do the same to all but the run, announce the same and have the same result. -/
theorem InStep.outcome_eq (h : InStep handle r w) {now : Nat} {operation : Operation}
    (tick : r.delivers handle now operation) :
    (r.perform now operation).withoutRun = w.step.withoutRun := by
  obtain ⟨v, h, performed⟩ := h.perform_eq tick
  calc (r.perform now operation).withoutRun
      = v.execute.withoutRun := by rw [performed]
    _ = v.withoutRun.execute.withoutRun := execute_withoutRun v
    _ = w.withoutRun.execute.withoutRun := by rw [h.alike]
    _ = w.execute.withoutRun := (execute_withoutRun w).symm
    _ = w.step.withoutRun := by rw [h.step_eq]

theorem InStep.entry_eq (h : InStep handle r w) {now : Nat} {operation : Operation}
    (tick : r.delivers handle now operation) :
    (r.perform now operation).entry = w.step.entry := by
  have outcome := congrArg Outcome.entry (h.outcome_eq tick)
  exact outcome

/-- After a step that succeeds the two are still in step. -/
theorem InStep.next (h : InStep handle r w) {now : Nat} {operation : Operation}
    (tick : r.delivers handle now operation) {m : M}
    (ok : Machine.step w.machine = (m, .ok ())) :
    InStep handle (r.perform now operation).bench w.step.bench ∧
      w.step.bench.machine = m ∧ w.step.entry = stepEntry (Machine.pc m) := by
  have outcome := h.outcome_eq tick
  obtain ⟨v, h, performed⟩ := h.perform_eq tick
  have ok' : Machine.step v.machine = (m, .ok ()) := by rw [h.machine, ok]
  rw [h.step_eq, execute_ok ok, performed, execute_ok ok'] at outcome ⊢
  exact ⟨⟨h.running, h.idle, h.program, congrArg (·.bench) outcome⟩, rfl, rfl⟩

/-- After a step that fails neither has a run. -/
theorem InStep.halt (h : InStep handle r w) {now : Nat} {operation : Operation}
    (tick : r.delivers handle now operation) {m : M} {e : MachineError}
    (error : Machine.step w.machine = (m, .error e)) :
    (r.perform now operation).bench.run = .idle ∧ w.step.bench.run = .idle ∧
      w.step.entry = haltEntry e := by
  obtain ⟨v, h, performed⟩ := h.perform_eq tick
  have error' : Machine.step v.machine = (m, .error e) := by rw [h.machine, error]
  rw [h.step_eq, execute_error error, performed, execute_error error']
  exact ⟨rfl, rfl, rfl⟩

/-! ## Many ticks and as many steps -/

/-- In a script of nothing but ticks the first operation is one and nothing but ticks follow. -/
theorem Attended.cons_inv {o : Nat × Operation} {script : Script}
    (h : r.Attended handle (o :: script) (script.length + 1)) :
    r.delivers handle o.1 o.2 ∧
      (r.perform o.1 o.2).bench.Attended handle script script.length := by
  cases h with
  | tick delivers rest => exact ⟨delivers, rest⟩
  | aside aside rest => exact absurd rest.le_length (Nat.not_succ_le_self _)

/-- Parts of a script of nothing but ticks are such scripts. -/
theorem Attended.split_ticks {script later : Script}
    (h : r.Attended handle (script ++ later) (script ++ later).length) :
    r.Attended handle script script.length ∧
      (r.after script).Attended handle later later.length := by
  obtain ⟨k, l, total, first, second⟩ := h.split
  have hk := first.le_length
  have hl := second.le_length
  rw [List.length_append] at total
  obtain rfl : k = script.length := by omega
  obtain rfl : l = later.length := by omega
  exact ⟨first, second⟩

/-- Ticks and as many steps, none of which fails. -/
theorem InStep.after (h : InStep handle r w) {script : Script}
    (ticks : r.Attended handle script script.length) {m : M}
    (ok : Machine.advance? w.machine script.length = some m) :
    InStep handle (r.after script) (w.after (steps script.length)) ∧
      (w.after (steps script.length)).machine = m ∧
      r.log script = w.log (steps script.length) ∧
      w.log (steps script.length) =
        (Machine.visited w.machine script.length).map stepEntry := by
  induction script generalizing r w with
  | nil =>
    cases ok
    exact ⟨h, rfl, rfl, rfl⟩
  | cons o script ih =>
    obtain ⟨tick, rest⟩ := ticks.cons_inv
    obtain ⟨m', first, ok⟩ := Machine.step_of_advance? ok
    obtain ⟨next, machine, entry⟩ := h.next tick first
    rw [← machine] at ok
    -- the two are in step after one tick and one step, so the rest is the same over again
    obtain ⟨last, machine_last, same, log⟩ := ih next rest ok
    have log_steps : w.log (steps (script.length + 1)) =
        w.step.entry :: w.step.bench.log (steps script.length) := rfl
    rw [List.length_cons, log_cons, log_steps, h.entry_eq tick, same, entry, log, machine,
      Machine.visited_succ first]
    exact ⟨last, machine_last, rfl, rfl⟩

/-- A workbench without a run ignores ticks. -/
theorem Attended.ignored {script : Script} (ticks : w.Attended handle script script.length)
    (idle : w.run = .idle) :
    w.after script = w ∧ w.log script = script.map fun _ => ([], .ok ()) := by
  induction script with
  | nil => exact ⟨rfl, rfl⟩
  | cons o script ih =>
    obtain ⟨tick, rest⟩ := ticks.cons_inv
    have nothing := perform_of_delivers_idle idle tick
    rw [nothing] at rest
    obtain ⟨bench, log⟩ := ih rest
    rw [after_cons, log_cons, nothing, List.map_cons]
    exact ⟨bench, congrArg (List.cons _) log⟩

/-! ## A run and single steps -/

/-- Ticks of a run and as many steps have the same log and lead to the same, but for the run. -/
structure Agrees (r w : Workbench M) (script : Script) : Prop where
  log : r.log script = w.log (steps script.length)
  bench : (r.after script).withoutRun = (w.after (steps script.length)).withoutRun

/-- Of ticks and as many steps the last one fails. -/
theorem InStep.after_halt (h : InStep handle r w) {first : Script} {o : Nat × Operation}
    (ticks : r.Attended handle first first.length)
    (tick : (r.after first).delivers handle o.1 o.2) {m m' : M} {e : MachineError}
    (ok : Machine.advance? w.machine first.length = some m)
    (error : Machine.step m = (m', .error e)) :
    Agrees r w (first ++ [o]) ∧
      r.log (first ++ [o]) =
        (Machine.visited w.machine first.length).map stepEntry ++ [haltEntry e] ∧
      (r.after (first ++ [o])).run = .idle ∧ (w.after (steps (first.length + 1))).run = .idle := by
  obtain ⟨last, machine, same, log⟩ := h.after ticks ok
  rw [← machine] at error
  obtain ⟨idle_r, idle_w, entry⟩ := last.halt tick error
  have length : (first ++ [o]).length = first.length + 1 := List.length_append
  have after_r := after_concat r first o
  have after_w : w.after (steps (first.length + 1)) =
      (w.after (steps first.length)).step.bench := by
    rw [steps_succ]
    exact after_append w _ _
  have log_r : r.log (first ++ [o]) =
      r.log first ++ [((r.after first).perform o.1 o.2).entry] :=
    log_append r first [o]
  have log_w : w.log (steps (first.length + 1)) =
      w.log (steps first.length) ++ [(w.after (steps first.length)).step.entry] := by
    rw [steps_succ]
    exact log_append w _ _
  rw [last.entry_eq tick, same] at log_r
  refine ⟨⟨?_, ?_⟩, ?_, ?_, ?_⟩
  · rw [length, log_r, log_w]
  · rw [length, after_r, after_w]
    exact congrArg (·.bench) (last.outcome_eq tick)
  · rw [log_r, log, entry]
  · rw [after_r, idle_r]
  · rw [after_w, idle_w]

/-- **A run and single steps agree.**  `n` ticks of a run do and announce what `n` steps do, as
long as none of them fails.  The first that fails is announced as a halt and has the same error
for both, no run is in progress after it, and all later ticks are ignored. -/
theorem run_agrees_with_steps (w : Workbench M) (program : w.listing.isEmpty = false)
    (idle : w.mode = .idle) (now : Nat) (script : Script)
    (ticks : (w.toggleRun now).bench.Attended (w.timersIssued + 1) script script.length) :
    let r := (w.toggleRun now).bench
    (∀ m, Machine.advance? w.machine script.length = some m →
      Agrees r w script ∧
        r.log script = (Machine.visited w.machine script.length).map stepEntry ∧
        (r.after script).mode = .running ∧ (w.after (steps script.length)).mode = .idle) ∧
      ∀ first o later m m' e, script = first ++ o :: later →
        Machine.advance? w.machine first.length = some m → Machine.step m = (m', .error e) →
        let halted := r.after (first ++ [o])
        Agrees r w (first ++ [o]) ∧
          r.log (first ++ [o]) =
            (Machine.visited w.machine first.length).map stepEntry ++ [haltEntry e] ∧
          halted.mode = .idle ∧ (w.after (steps (first.length + 1))).mode = .idle ∧
          r.after script = halted ∧ halted.log later = later.map fun _ => ([], .ok ()) := by
  intro r
  have begun : r = (w.begin now .running).bench := by rw [← toggleRun_of_idle program idle]
  have start : InStep (w.timersIssued + 1) r w := by
    rw [begun]
    exact ⟨⟨_, rfl, rfl⟩, RunState.eq_idle_of_mode idle, program, rfl⟩
  constructor
  · intro m ok
    obtain ⟨last, -, same, log⟩ := start.after ticks ok
    obtain ⟨timer, running, -⟩ := last.running
    refine ⟨⟨same, last.alike⟩, same.trans log, ?_, ?_⟩
    · rw [mode, running]
      rfl
    · rw [mode, last.idle]
      rfl
  · rintro first o later m m' e rfl ok error halted
    obtain ⟨ticks₁, ticks₂⟩ := ticks.split_ticks
    obtain ⟨tick, ticks₃⟩ := ticks₂.cons_inv
    obtain ⟨agrees, log, idle_r, idle_w⟩ := start.after_halt ticks₁ tick ok error
    rw [← after_concat] at ticks₃
    obtain ⟨stays, ignored⟩ := ticks₃.ignored idle_r
    refine ⟨agrees, log, ?_, ?_, ?_, ignored⟩
    · rw [mode, idle_r]
      rfl
    · rw [mode, idle_w]
      rfl
    · calc r.after (first ++ o :: later)
          = r.after ((first ++ [o]) ++ later) := by rw [List.append_assoc]; rfl
        _ = halted.after later := after_append r _ later
        _ = halted := stays

/-- After three steps the board meets the reserved opcode, and the last tick comes too late. -/
theorem run_agrees_with_steps_threeNops :
    let first : Script := [(500, .poll), (500, .command (.fire 1)), (1000, .poll)]
    let o : Nat × Operation := (1500, .poll)
    let later : Script := [(2000, .command (.fire 1))]
    let r := (threeNops.toggleRun 0).bench
    r.Attended 1 (first ++ o :: later) 5 ∧ Agrees r threeNops (first ++ [o]) ∧
      r.log (first ++ [o]) =
        [stepEntry 1, stepEntry 2, stepEntry 3, haltEntry (.illegalOpcode 3 0xA5)] ∧
      (r.after (first ++ o :: later)).mode = .idle := by
  intro first o later r
  have program : threeNops.listing.isEmpty = false := by decide +kernel
  have idle : threeNops.mode = .idle := by decide +kernel
  have ticks : r.Attended 1 (first ++ o :: later) 5 :=
    .tick (by decide +kernel) (.tick (by decide +kernel) (.tick (by decide +kernel)
      (.tick (by decide +kernel) (.tick (by decide +kernel) (.nil _)))))
  obtain ⟨m, advanced⟩ : ∃ m, Machine.advance? threeNops.machine 3 = some m :=
    Option.isSome_iff_exists.1 (by decide +kernel)
  have fails : (Machine.advance? threeNops.machine 3).map (fun m =>
      (m.stepOn m.code.read).2) = some (some (.illegalOpcode 3 0xA5)) := by decide +kernel
  rw [advanced] at fails
  have fault : (m.stepOn m.code.read).2 = some (.illegalOpcode 3 0xA5) := Option.some_inj.1 fails
  have error : (Machine.step m).2 = .error (.illegalOpcode 3 0xA5) := by
    rw [Dsm51.step_eq_stepOn m m.code, fault]
    rfl
  have visited : Machine.visited threeNops.machine 3 = [1, 2, 3] := by decide +kernel
  obtain ⟨agrees, log, halted, -, stays, -⟩ :=
    (run_agrees_with_steps threeNops program idle 0 (first ++ o :: later) ticks).2 first o later m
      (Machine.step m).1 (.illegalOpcode 3 0xA5) rfl advanced (Prod.ext rfl error)
  refine ⟨ticks, agrees, ?_, by rw [stays, halted]⟩
  rw [log, show Machine.visited threeNops.machine first.length = _ from visited]
  rfl

end Workbench

end Trainer51
