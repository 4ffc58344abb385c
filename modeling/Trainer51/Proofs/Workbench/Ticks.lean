import Trainer51.Proofs.Workbench.Runs

/-!
# Ticks

A run gets its ticks from polls that are not too early and from whoever fires its timer.  Either
way a tick is one step of the machine, or the end of a run to a target.

    w.delivers handle now operation → w.perform now operation is w.tick, with the timer of the
      run perhaps set anew                                   (perform_of_delivers)
    w.execute is the machine's step, shown and announced     (execute_ok, execute_error)

`Attended` says of a script which of its operations deliver ticks and that the others leave both
the run and the machine alone.
-/

namespace Trainer51

/-! ## The machine on its own -/

namespace Machine

variable {M : Type} [Machine M]

/-- The machine after a number of steps, if none of them fails. -/
def advance? (m : M) : Nat → Option M
  | 0 => some m
  | n + 1 =>
    match step m with
    | (m, .ok ()) => advance? m n
    | (_, .error _) => none

/-- The addresses that a number of steps lead to, up to a step that fails. -/
def visited (m : M) : Nat → List Word
  | 0 => []
  | n + 1 =>
    match step m with
    | (m, .ok ()) => pc m :: visited m n
    | (_, .error _) => []

theorem advance?_succ {m m' : M} (h : step m = (m', .ok ())) (n : Nat) :
    advance? m (n + 1) = advance? m' n := by
  rw [advance?, h]

theorem visited_succ {m m' : M} (h : step m = (m', .ok ())) (n : Nat) :
    visited m (n + 1) = pc m' :: visited m' n := by
  rw [visited, h]

/-- The first of several steps that all succeed. -/
theorem step_of_advance? {m m₁ : M} {n : Nat} (h : advance? m (n + 1) = some m₁) :
    ∃ m', step m = (m', .ok ()) ∧ advance? m' n = some m₁ := by
  rw [advance?] at h
  split at h
  · next m' hs => exact ⟨m', hs, h⟩
  · cases h

theorem length_visited {m m₁ : M} {n : Nat} (h : advance? m n = some m₁) :
    (visited m n).length = n := by
  induction n generalizing m with
  | zero => rfl
  | succ n ih =>
    obtain ⟨m', hs, h⟩ := step_of_advance? h
    rw [visited_succ hs, List.length_cons, ih h]

end Machine

theorem RunState.withTimer_self {r : RunState} {timer : Ticker} (h : r.timer? = some timer) :
    r.withTimer timer = r := by
  cases r with
  | idle => rfl
  | running => cases h; rfl
  | stepping => cases h; rfl

/-- Whether a change tells of a step of the machine. -/
def Change.isStep : Change → Bool
  | .stepped _ | .halted _ => true
  | _ => false

theorem filter_isStep_eq_nil {changes : List Change} (h : ∀ c ∈ changes, c.isStep = false) :
    changes.filter Change.isStep = [] := by
  rw [List.filter_eq_nil_iff]
  intro c hc
  rw [h c hc]
  exact Bool.false_ne_true

theorem filter_isStep_append {changes later : List Change} (h : ∀ c ∈ changes, c.isStep = false) :
    (changes ++ later).filter Change.isStep = later.filter Change.isStep := by
  rw [List.filter_append, filter_isStep_eq_nil h, List.nil_append]

namespace Workbench

variable {M : Type} [Machine M]

/-! ## One step -/

theorem execute_ok {w : Workbench M} {m : M} (h : Machine.step w.machine = (m, .ok ())) :
    w.execute =
      { w with machine := m }.followPc.reread.announce (.stepped (Machine.pc m)) (.ok ()) := by
  simp only [execute, h]
  rfl

theorem execute_error {w : Workbench M} {m : M} {e : MachineError}
    (h : Machine.step w.machine = (m, .error e)) :
    w.execute =
      { w with machine := m, run := .idle }.reread.announce (.halted e) (.error (.halted e)) := by
  simp only [execute, h]

/-! ## One tick -/

/-- A poll at which no deadline has come. -/
theorem poll_early {w : Workbench M} {now : Nat}
    (early : ∀ timer, w.run.timer? = some timer → now < timer.deadline) :
    w.poll now = w.unchanged (.ok false) := by
  unfold poll
  split
  · rfl
  · next timer own => rw [Ticker.poll, if_pos (early timer own)]

theorem poll_due {w : Workbench M} {now : Nat} {timer : Ticker} (own : w.run.timer? = some timer)
    (due : timer.deadline ≤ now) :
    w.poll now =
      ({ w with run := w.run.withTimer { timer with deadline := now + timer.period } } :
        Workbench M).ticked := by
  simp only [poll, own, Ticker.poll, if_neg (Nat.not_lt.2 due)]

/-- Whether an operation delivers a tick to the run with a handle: a tick fired for it, or a poll
that is not too early.  Without a run no poll is. -/
def delivers (w : Workbench M) (handle now : Nat) : Operation → Bool
  | .poll => w.deadline?.all (· ≤ now)
  | .command (.fire h) => h == handle
  | _ => false

/-- A tick that is delivered runs; the timer may have been set anew. -/
theorem perform_of_delivers {w : Workbench M} {timer : Ticker} {now : Nat} {operation : Operation}
    (ht : w.run.timer? = some timer) (h : w.delivers timer.handle now operation) :
    ∃ timer', timer'.handle = timer.handle ∧
      w.perform now operation = ({ w with run := w.run.withTimer timer' } : Workbench M).tick := by
  cases operation with
  | poll =>
    have due : timer.deadline ≤ now := by simpa [delivers, deadline?, ht] using h
    refine ⟨{ timer with deadline := now + timer.period }, rfl, ?_⟩
    show (w.poll now).checked = _
    rw [poll_due ht due]
    exact checked_ticked _
  | command command =>
    cases command with
    | fire handle =>
      have own : handle = timer.handle := by simpa [delivers] using h
      refine ⟨timer, rfl, ?_⟩
      show (w.fire handle).checked = _
      rw [fire, if_pos (by rw [ht, own]; rfl), checked_ticked, RunState.withTimer_self ht]
    | _ => cases h
  | _ => cases h

/-- A poll that is too early and a tick fired for another run are dropped. -/
theorem perform_of_not_delivers {w : Workbench M} {handle now : Nat} {operation : Operation}
    (own : w.run.handle? = some handle)
    (tick : operation = .poll ∨ ∃ handle, operation = .command (.fire handle))
    (h : w.delivers handle now operation = false) :
    w.perform now operation = w.unchanged (.ok ()) := by
  obtain ⟨timer, ht, rfl⟩ := Option.map_eq_some_iff.1 own
  obtain rfl | ⟨handle', rfl⟩ := tick
  · have early : now < timer.deadline := by simpa [delivers, deadline?, ht] using h
    show (w.poll now).checked = _
    rw [poll_early fun timer' own => by cases ht.symm.trans own; exact early]
    rfl
  · have other : handle' ≠ timer.handle := by simpa [delivers] using h
    show (w.fire handle').checked = _
    rw [fire_of_ne]
    · rfl
    · rw [own]
      exact fun same => other (Option.some_inj.1 same).symm

/-- Without a run there is nothing to deliver a tick to. -/
theorem perform_of_delivers_idle {w : Workbench M} {handle now : Nat} {operation : Operation}
    (idle : w.run = .idle) (h : w.delivers handle now operation) :
    w.perform now operation = w.unchanged (.ok ()) := by
  cases operation with
  | poll =>
    show (w.poll now).checked = _
    simp only [poll, idle, RunState.timer?]
    rfl
  | command command =>
    cases command with
    | fire handle' =>
      show (w.fire handle').checked = _
      rw [fire, if_neg (by rw [idle]; exact nofun)]
      rfl
    | _ => cases h
  | _ => cases h

/-! ## Scripts that attend to a run -/

/-- The machine was not touched, nor was a step announced. -/
structure Untouched (w : Workbench M) (o : Outcome M (Except BenchError Unit)) : Prop where
  machine : o.bench.machine = w.machine
  changes : ∀ c ∈ o.changes, c.isStep = false

/-- Neither the machine nor the run in progress was touched. -/
structure Aside (w : Workbench M) (o : Outcome M (Except BenchError Unit)) : Prop
    extends Untouched w o where
  run : o.bench.run = w.run

/-- During a script the run with a handle gets `n` ticks, and everything else that happens leaves
the machine and the run in progress alone. -/
inductive Attended (handle : Nat) : Workbench M → Script → Nat → Prop where
  | nil (w : Workbench M) : Attended handle w [] 0
  | tick {w : Workbench M} {o : Nat × Operation} {script : Script} {n : Nat}
      (delivers : w.delivers handle o.1 o.2)
      (rest : Attended handle (w.perform o.1 o.2).bench script n) :
      Attended handle w (o :: script) (n + 1)
  | aside {w : Workbench M} {o : Nat × Operation} {script : Script} {n : Nat}
      (aside : Aside w (w.perform o.1 o.2))
      (rest : Attended handle (w.perform o.1 o.2).bench script n) :
      Attended handle w (o :: script) n

theorem Attended.le_length {handle n : Nat} {w : Workbench M} {script : Script}
    (h : w.Attended handle script n) : n ≤ script.length := by
  induction h with
  | nil => exact Nat.le_refl 0
  | tick delivers rest ih => exact Nat.succ_le_succ ih
  | aside aside rest ih => exact Nat.le_succ_of_le ih

theorem Attended.split {handle n : Nat} {w : Workbench M} {script later : Script}
    (h : w.Attended handle (script ++ later) n) :
    ∃ k l, n = k + l ∧ w.Attended handle script k ∧ (w.after script).Attended handle later l := by
  induction script generalizing w n with
  | nil => exact ⟨0, n, (Nat.zero_add n).symm, .nil w, h⟩
  | cons o script ih =>
    cases h with
    | tick delivers rest =>
      obtain ⟨k, l, rfl, first, second⟩ := ih rest
      exact ⟨k + 1, l, by omega, .tick delivers first, second⟩
    | aside aside rest =>
      obtain ⟨k, l, rfl, first, second⟩ := ih rest
      exact ⟨k, l, rfl, .aside aside first, second⟩

/-- Once the run is over, ticks do nothing. -/
theorem Attended.idle {handle n : Nat} {w : Workbench M} {script : Script}
    (h : w.Attended handle script n) (idle : w.run = .idle) :
    (w.after script).machine = w.machine ∧ (w.after script).run = .idle ∧
      ∀ c ∈ w.announced script, c.isStep = false := by
  induction h with
  | nil w => exact ⟨rfl, idle, nofun⟩
  | @tick w o script n delivers rest ih =>
    have nothing := perform_of_delivers_idle idle delivers
    rw [nothing] at ih
    rw [after_cons, announced_cons, nothing]
    exact ih idle
  | @aside w o script n aside rest ih =>
    obtain ⟨machine, run, changes⟩ := ih (aside.run.trans idle)
    refine ⟨machine.trans aside.machine, run, ?_⟩
    intro c hc
    rw [announced_cons] at hc
    exact (List.mem_append.1 hc).elim (aside.changes c) (changes c)

/-- A board with a program of three instructions that do nothing and a reserved opcode. -/
def threeNops : Workbench Dsm51 :=
  { new ((Dsm51.new .binary).writeCode 3 [0xA5]) (Dsm51.lister .binary) {} with
    listing := .ofRows
      [⟨0, [0x00], "NOP"⟩, ⟨1, [0x00], "NOP"⟩, ⟨2, [0x00], "NOP"⟩, ⟨3, [0xA5], "DB A5h"⟩] }

end Workbench

end Trainer51
