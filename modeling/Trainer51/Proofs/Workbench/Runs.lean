import Trainer51.Dsm51
import Trainer51.Proofs.Workbench.Moves

/-!
# One run at a time

A run begins where none is in progress and gets a timer that no run had before.  So between two
moments without an idle one in between there is a single run, and a tick that was meant for a run
that is over finds no run to go to.

    a script is idle on the way, or the run after it is the run before it      (sameRun_after)
    a handle up to the last one issued that no run has, no run will ever have  (spent_after)
-/

namespace Trainer51

/-- The handle of the timer of the run in progress. -/
def RunState.handle? (r : RunState) : Option Nat := r.timer?.map (·.handle)

theorem RunState.SameRun.trans {r s t : RunState} (h : r.SameRun s) (h' : s.SameRun t) :
    r.SameRun t :=
  ⟨h.mode.trans h'.mode, h.handle.trans h'.handle, h.target.trans h'.target⟩

theorem RunState.handle?_of_idle {r : RunState} (h : r.mode = .idle) : r.handle? = none := by
  rw [eq_idle_of_mode h]
  rfl

namespace Workbench

variable {M : Type} [Machine M]

/-- No run is in progress at some point of a script, its ends included. -/
def IdleDuring (w : Workbench M) (script : Script) : Prop :=
  ∃ before rest, script = before ++ rest ∧ (w.after before).mode = .idle

theorem idleDuring_cons (w : Workbench M) (o : Nat × Operation) (script : Script) :
    w.IdleDuring (o :: script) ↔
      w.mode = .idle ∨ (w.perform o.1 o.2).bench.IdleDuring script := by
  constructor
  · rintro ⟨before, rest, h, idle⟩
    cases before with
    | nil => exact .inl idle
    | cons o' before =>
      obtain ⟨rfl, rfl⟩ := List.cons.inj h
      exact .inr ⟨before, rest, rfl, idle⟩
  · rintro (idle | ⟨before, rest, rfl, idle⟩)
    · exact ⟨[], o :: script, rfl, idle⟩
    · exact ⟨o :: before, rest, rfl, idle⟩

/-! ## From one moment to the next -/

/-- A run in progress goes on or ends. -/
theorem Move.sameRun {w : Workbench M} {o : Outcome M (Except BenchError Unit)} (move : Move w o)
    (active : w.mode ≠ .idle) : o.bench.mode = .idle ∨ o.bench.run.SameRun w.run := by
  cases move with
  | loaded | unloaded | halted | ended | reset => exact .inl rfl
  | nothing | refreshed | spaceSelected | rowSelected | scrolled => exact .inr (.refl _)
  | pressed | released | allReleased => exact .inr (.refl _)
  | stepped machine run same step => exact .inr same
  | begun now run kind program idle => exact absurd idle active

theorem sameRun_after (w : Workbench M) (script : Script) :
    w.IdleDuring script ∨ (w.after script).run.SameRun w.run := by
  induction script generalizing w with
  | nil => exact .inr (.refl _)
  | cons o script ih =>
    rw [idleDuring_cons]
    -- the first idle moment is now, after one operation, or later
    by_cases active : w.mode = .idle
    · exact .inl (.inl active)
    · obtain idle | same := (move_perform w o.1 o.2).sameRun active
      · exact .inl (.inr ⟨[], script, rfl, idle⟩)
      · obtain during | later := ih (w.perform o.1 o.2).bench
        · exact .inl (.inr during)
        · exact .inr (later.trans same)

/-! ## Handles -/

theorem Move.timersIssued {w : Workbench M} {o : Outcome M (Except BenchError Unit)}
    (move : Move w o) : w.timersIssued ≤ o.bench.timersIssued := by
  cases move with
  | begun => exact Nat.le_succ _
  | _ => exact Nat.le_refl _

theorem timersIssued_after (w : Workbench M) (script : Script) :
    w.timersIssued ≤ (w.after script).timersIssued :=
  after_of_move (p := fun v => w.timersIssued ≤ v.timersIssued)
    (fun _ _ move h => Nat.le_trans h move.timersIssued) w (Nat.le_refl _) script

/-- The run in progress has a handle that has been issued. -/
def HandleIssued (w : Workbench M) : Prop :=
  ∀ handle, w.run.handle? = some handle → handle ≤ w.timersIssued

omit [Machine M] in
theorem handle?_begin (w : Workbench M) (now : Nat) {run : Ticker → RunState}
    (kind : run = .running ∨ ∃ target, run = (.stepping · target 0)) :
    (w.begin now run).bench.run.handle? = some (w.timersIssued + 1) := by
  obtain rfl | ⟨target, rfl⟩ := kind
  · rfl
  · rfl

omit [Machine M] in
theorem handleIssued_of_idle {w : Workbench M} (h : w.mode = .idle) : w.HandleIssued := by
  intro handle hh
  cases (RunState.handle?_of_idle h).symm.trans hh

omit [Machine M] in
theorem toggleRun_of_idle {w : Workbench M} (program : w.listing.isEmpty = false)
    (idle : w.mode = .idle) (now : Nat) : w.toggleRun now = w.begin now .running := by
  unfold toggleRun
  rw [if_neg (by rw [program]; exact Bool.false_ne_true), idle]

omit [Machine M] in
theorem runTo_of_idle {w : Workbench M} (program : w.listing.isEmpty = false)
    (idle : w.mode = .idle) (target : Word) (now : Nat) :
    w.runTo target now = w.begin now (.stepping · target 0) := by
  unfold runTo
  rw [if_neg]
  simp [program, idle]

theorem Move.handleIssued {w : Workbench M} {o : Outcome M (Except BenchError Unit)}
    (move : Move w o) (h : w.HandleIssued) : o.bench.HandleIssued := by
  cases move with
  | loaded | unloaded | halted | ended | reset => exact handleIssued_of_idle rfl
  | nothing | refreshed | spaceSelected | rowSelected | scrolled => exact h
  | pressed | released | allReleased => exact h
  | stepped machine run same step =>
    intro handle hh
    exact h handle (same.handle.symm.trans hh)
  | begun now run kind program idle =>
    intro handle hh
    cases (handle?_begin w now kind).symm.trans hh
    exact Nat.le_refl _

/-- A handle that has been issued and that the run in progress does not have. -/
structure Spent (w : Workbench M) (handle : Nat) : Prop where
  issued : handle ≤ w.timersIssued
  ended : w.run.handle? ≠ some handle

theorem Move.spent {w : Workbench M} {o : Outcome M (Except BenchError Unit)} (move : Move w o)
    {handle : Nat} (h : w.Spent handle) : o.bench.Spent handle := by
  refine ⟨Nat.le_trans h.issued move.timersIssued, ?_⟩
  cases move with
  | loaded | unloaded | halted | ended | reset => exact nofun
  | nothing | refreshed | spaceSelected | rowSelected | scrolled => exact h.ended
  | pressed | released | allReleased => exact h.ended
  | stepped machine run same step => exact fun hh => h.ended (same.handle.symm.trans hh)
  | begun now run kind program idle =>
    intro hh
    cases (handle?_begin w now kind).symm.trans hh
    exact absurd h.issued (Nat.not_succ_le_self _)

theorem spent_after {w : Workbench M} {handle : Nat} (h : w.Spent handle) (script : Script) :
    (w.after script).Spent handle :=
  after_of_move (fun _ _ move => move.spent) w h script

/-- A run that is over leaves a spent handle behind. -/
theorem spent_of_idleDuring {w : Workbench M} {script : Script} (idle : w.IdleDuring script)
    {handle : Nat} (issued : handle ≤ w.timersIssued) : (w.after script).Spent handle := by
  obtain ⟨before, rest, rfl, idle⟩ := idle
  rw [after_append]
  refine spent_after ⟨Nat.le_trans issued (timersIssued_after w before), ?_⟩ rest
  rw [RunState.handle?_of_idle idle]
  exact nofun

/-- The tick of another run is dropped. -/
theorem fire_of_ne {w : Workbench M} {handle : Nat} (h : w.run.handle? ≠ some handle) :
    w.fire handle = w.unchanged (.ok false) :=
  if_neg h

/-! ## All runs of a workbench -/

/-- **There is one run at a time, and its handle is its own.**  As long as a workbench is not idle
it has one run with one mode, one timer and one target.  A run and a run to a target have an idle
moment between them.  Once there was an idle moment no run has the handle of an earlier one, and
the tick of an earlier one is dropped: nothing changes and nothing is announced. -/
theorem one_run_at_a_time (machine : M) (lister : Lister) (s : Settings)
    (history script : Script) :
    let w := (new machine lister s).after history
    let v := w.after script
    (¬ w.IdleDuring script → v.run.SameRun w.run) ∧
      (v.mode ≠ w.mode → w.IdleDuring script) ∧
      ∀ handle, w.run.handle? = some handle → w.IdleDuring script →
        v.run.handle? ≠ some handle ∧ v.fire handle = v.unchanged (.ok false) := by
  intro w v
  have either : w.IdleDuring script ∨ v.run.SameRun w.run := sameRun_after w script
  refine ⟨either.resolve_left, ?_, ?_⟩
  · intro other
    exact either.resolve_right fun same => other same.mode
  · intro handle hw idle
    have issued : w.HandleIssued :=
      after_of_move (fun _ _ move => move.handleIssued) _ (handleIssued_of_idle rfl) history
    have spent : v.Spent handle := spent_of_idleDuring idle (issued handle hw)
    exact ⟨spent.ended, fire_of_ne spent.ended⟩

/-- A board that has just been switched on, with a lister that knows one program. -/
def oneNop : Workbench Dsm51 :=
  new (Dsm51.new .binary) (fun _ => .ok [⟨0, [0x00], "NOP"⟩]) {}

/-- A run that is stopped and begun again is another run, deaf to the ticks of the first. -/
theorem one_run_at_a_time_restarted :
    let w := oneNop.after [(0, .command (.load [0x00])), (0, .command .run)]
    let again : Script := [(0, .command .stop), (0, .command .run)]
    w.run.handle? = some 1 ∧ w.IdleDuring again ∧ (w.after again).run.handle? = some 2 ∧
      (w.after again).fire 1 = (w.after again).unchanged (.ok false) := by
  intro w again
  have first : (oneNop.after [(0, .command (.load [0x00])),
      (0, .command .run)]).run.handle? = some 1 := by decide +kernel
  have second : ((oneNop.after [(0, .command (.load [0x00])), (0, .command .run)]).after
      [(0, .command .stop), (0, .command .run)]).run.handle? = some 2 := by decide +kernel
  have stopped : ((oneNop.after [(0, .command (.load [0x00])), (0, .command .run)]).after
      [(0, .command .stop)]).mode = .idle := by decide +kernel
  have idle : w.IdleDuring again := ⟨[(0, .command .stop)], [(0, .command .run)], rfl, stopped⟩
  have stale := (one_run_at_a_time oneNop.machine oneNop.lister {} _ again).2.2 1 first idle
  exact ⟨first, idle, second, stale.2⟩

end Workbench

end Trainer51
