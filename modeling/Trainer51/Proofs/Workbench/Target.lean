import Mathlib.Data.ENat.Lattice
import Trainer51.Proofs.Workbench.Ticks

/-!
# A run to a target stops exactly on it

Before every step a run to a target looks at the mark of execution, then at the number of steps it
has taken.  So it takes as many steps as there are to the first place where one of them stops it,
whatever is asked of the workbench in between, and the next tick ends it.

    w.place? i is where execution is after `i` further steps
    w.EndsAt target ticks i: it is at the target there, or at the limit
    the steps taken lead to no such place before the last                  (Attended.progress)
    the first such place is `min (w.distance target) w.limit` steps away       (le_stop_iff)
-/

namespace Trainer51

/-- The operations that do nothing to a run to a target but deliver its ticks: those on the listing
and the memory table, those that wait for its end, polls and ticks fired. -/
def Operation.sparesRun : Operation → Bool
  | .poll | .command (.fire _) => true
  | .selectSpace _ | .resizeWindow _ => true
  | .command (.selectSpace _) | .command (.selectRow _) => true
  | .command (.scroll _) | .command (.scrollTo _) => true
  | .command .step | .command .run | .command .pause => true
  | .command .runToTarget | .command (.runToAddress _) => true
  | _ => false

namespace Workbench

variable {M : Type} [Machine M]

/-! ## Where a run ends -/

/-- The mark of execution after a number of further steps, if none of them fails. -/
def place? (w : Workbench M) : Nat → Option Word
  | 0 => some w.cursor.current
  | n + 1 => (Machine.advance? w.machine (n + 1)).map Machine.pc

/-- The number of steps that lead to a target first; infinite if none do. -/
noncomputable def distance (w : Workbench M) (target : Word) : ℕ∞ :=
  ⨅ (i : ℕ) (_ : w.place? i = some target), (i : ℕ∞)

/-- The number of steps that a run to a target may take. -/
def limit (w : Workbench M) : ℕ∞ := w.targetLimit.elim ⊤ (↑)

/-- A run to a target that has taken `ticks` steps ends after `i` more. -/
def EndsAt (w : Workbench M) (target : Word) (ticks i : Nat) : Prop :=
  w.place? i = some target ∨ w.atLimit (ticks + i) = true

instance (w : Workbench M) (target : Word) (ticks i : Nat) :
    Decidable (w.EndsAt target ticks i) :=
  inferInstanceAs (Decidable (_ ∨ _))

theorem place?_succ {w v : Workbench M} {m : M} (h : Machine.step w.machine = (m, .ok ()))
    (machine : v.machine = m) (current : v.cursor.current = Machine.pc m) (i : Nat) :
    w.place? (i + 1) = v.place? i := by
  rw [place?, Machine.advance?_succ h]
  cases i with
  | zero => rw [place?, current]; rfl
  | succ i => rw [place?, machine]

theorem endsAt_succ {w v : Workbench M} {m : M} (h : Machine.step w.machine = (m, .ok ()))
    (machine : v.machine = m) (current : v.cursor.current = Machine.pc m)
    (limit : v.targetLimit = w.targetLimit) (target : Word) (ticks i : Nat) :
    w.EndsAt target ticks (i + 1) ↔ v.EndsAt target (ticks + 1) i := by
  unfold EndsAt atLimit
  rw [place?_succ h machine current, limit, Nat.add_right_comm, Nat.add_assoc]

/-- Only the machine and the mark matter. -/
theorem place?_congr {w v : Workbench M} (machine : v.machine = w.machine)
    (current : v.cursor.current = w.cursor.current) (i : Nat) : v.place? i = w.place? i := by
  cases i with
  | zero => rw [place?, place?, current]
  | succ i => rw [place?, place?, machine]

theorem endsAt_congr {w v : Workbench M} (machine : v.machine = w.machine)
    (current : v.cursor.current = w.cursor.current) (limit : v.targetLimit = w.targetLimit)
    (target : Word) (ticks i : Nat) : v.EndsAt target ticks i ↔ w.EndsAt target ticks i := by
  unfold EndsAt atLimit
  rw [place?_congr machine current, limit]

theorem distance_congr {w v : Workbench M} (machine : v.machine = w.machine)
    (current : v.cursor.current = w.cursor.current) (target : Word) :
    v.distance target = w.distance target := by
  unfold distance
  simp only [place?_congr machine current]

omit [Machine M] in
theorem le_limit_iff (w : Workbench M) (n : Nat) :
    (n : ℕ∞) ≤ w.limit ↔ ∀ i < n, w.atLimit i = false := by
  unfold limit atLimit
  cases w.targetLimit with
  | none => simp
  | some l =>
    simp only [Option.elim_some, Nat.cast_le, Option.any_some, decide_eq_false_iff_not, Nat.not_le]
    constructor
    · exact fun h i hi => Nat.lt_of_lt_of_le hi h
    · intro h
      by_contra hn
      exact Nat.lt_irrefl l (h l (Nat.lt_of_not_le hn))

theorem le_distance_iff (w : Workbench M) (target : Word) (n : Nat) :
    (n : ℕ∞) ≤ w.distance target ↔ ∀ i < n, w.place? i ≠ some target := by
  unfold distance
  rw [le_iInf₂_iff]
  simp only [Nat.cast_le]
  constructor
  · exact fun h i hi place => Nat.lt_irrefl i (Nat.lt_of_lt_of_le hi (h i place))
  · intro h i place
    by_contra hn
    exact h i (Nat.lt_of_not_le hn) place

/-- The nearer of target and limit is the first place where a run ends. -/
theorem le_stop_iff (w : Workbench M) (target : Word) (n : Nat) :
    (n : ℕ∞) ≤ min (w.distance target) w.limit ↔ ∀ i < n, ¬ w.EndsAt target 0 i := by
  rw [le_min_iff, le_distance_iff, le_limit_iff]
  constructor
  · rintro ⟨place, limit⟩ i hi (h | h)
    · exact place i hi h
    · rw [Nat.zero_add, limit i hi] at h
      cases h
  · intro h
    refine ⟨fun i hi place => h i hi (.inl place), fun i hi => ?_⟩
    rw [← Bool.not_eq_true]
    intro limit
    exact h i hi (.inr (by rwa [Nat.zero_add]))

theorem stop_eq {w : Workbench M} {target : Word} {n : Nat}
    (before : ∀ i < n, ¬ w.EndsAt target 0 i) (ends : w.EndsAt target 0 n) :
    min (w.distance target) w.limit = n := by
  refine le_antisymm ?_ ((le_stop_iff w target n).2 before)
  have past : ¬ ((n + 1 : ℕ) : ℕ∞) ≤ min (w.distance target) w.limit := fun h =>
    (le_stop_iff w target (n + 1)).1 h n (Nat.lt_succ_self n) ends
  rw [not_le, Nat.cast_add, Nat.cast_one] at past
  exact (ENat.lt_add_one_iff (ENat.natCast_ne_top n)).1 past

/-! ## One tick -/

variable {w : Workbench M} {timer : Ticker} {target : Word} {ticks : Nat}

/-- A tick of a run to a target ends the run or executes an instruction. -/
theorem tick_toTarget (run : w.run = .stepping timer target ticks) {now : Nat}
    {operation : Operation} (tick : w.delivers timer.handle now operation) :
    (w.EndsAt target ticks 0 ∧ w.perform now operation =
      { w with run := .idle }.announce (.modeChanged .idle) (.ok ())) ∨
    (¬ w.EndsAt target ticks 0 ∧ ∃ timer', timer'.handle = timer.handle ∧
      w.perform now operation =
        ({ w with run := .stepping timer' target (ticks + 1) } : Workbench M).execute) := by
  have ht : w.run.timer? = some timer := by rw [run]; rfl
  obtain ⟨timer', own, performed⟩ := perform_of_delivers ht tick
  rw [run] at performed
  have ends : w.EndsAt target ticks 0 ↔ w.cursor.current = target ∨ w.atLimit ticks = true := by
    unfold EndsAt place?
    rw [Option.some_inj, Nat.add_zero]
  rw [performed, ends]
  by_cases h : w.cursor.current = target ∨ w.atLimit ticks = true
  · refine .inl ⟨h, ?_⟩
    exact if_pos h
  · refine .inr ⟨h, timer', own, ?_⟩
    exact if_neg h

/-- What leaves a run alone leaves the mark of execution alone. -/
theorem Move.current_of_aside {o : Outcome M (Except BenchError Unit)} (move : Move w o)
    (aside : Aside w o) (active : w.mode ≠ .idle) :
    o.bench.cursor.current = w.cursor.current := by
  have ended : o.bench.run ≠ .idle := by
    rw [aside.run]
    exact fun idle => active (congrArg RunState.mode idle)
  cases move with
  | loaded | unloaded | halted | ended | reset => exact absurd rfl ended
  | nothing | begun | refreshed | spaceSelected | rowSelected | scrolled => rfl
  | pressed | released | allReleased => rfl
  | stepped machine run same step => cases aside.changes _ (List.mem_singleton_self _)

/-! ## Many ticks -/

/-- What a script has come to that attended to a run to a target with a handle: `taken` steps, and
a run that goes on, every tick having been a step, or one that has ended where it had to. -/
structure Progress (handle : Nat) (w : Workbench M) (target : Word) (ticks n taken : Nat)
    (script : Script) : Prop where
  machine : Machine.advance? w.machine taken = some (w.after script).machine
  changes : (w.announced script).filter Change.isStep =
    (Machine.visited w.machine taken).map Change.stepped
  before : ∀ i < taken, ¬ w.EndsAt target ticks i
  run : (taken = n ∧ ∃ timer, timer.handle = handle ∧
      (w.after script).run = .stepping timer target (ticks + n)) ∨
    (taken < n ∧ w.EndsAt target ticks taken ∧ (w.after script).run = .idle)

variable {o : Nat × Operation} {script : Script} {handle n taken : Nat}

/-- A tick that ends the run. -/
theorem Progress.ended (performed : w.perform o.1 o.2 =
      { w with run := .idle }.announce (.modeChanged .idle) (.ok ()))
    (ends : w.EndsAt target ticks 0)
    (rest : (w.perform o.1 o.2).bench.Attended handle script n) :
    Progress handle w target ticks (n + 1) 0 (o :: script) := by
  rw [performed] at rest
  obtain ⟨machine, idle, changes⟩ := rest.idle rfl
  constructor
  case machine =>
    rw [after_cons, performed, machine]
    rfl
  case changes =>
    rw [announced_cons, performed, filter_isStep_append (by simp [announce, Change.isStep]),
      filter_isStep_eq_nil changes]
    rfl
  case before => exact fun i hi => absurd hi (Nat.not_lt_zero i)
  case run =>
    refine .inr ⟨Nat.succ_pos n, ends, ?_⟩
    rw [after_cons, performed, idle]

/-- A tick that is a step. -/
theorem Progress.step {m : M} (ok : Machine.step w.machine = (m, .ok ())) {timer' : Ticker}
    (performed : w.perform o.1 o.2 =
      ({ w with run := .stepping timer' target (ticks + 1) } : Workbench M).execute)
    (goes_on : ¬ w.EndsAt target ticks 0)
    (rest : Progress handle (w.perform o.1 o.2).bench target (ticks + 1) n taken script) :
    Progress handle w target ticks (n + 1) (taken + 1) (o :: script) := by
  have executed := performed.trans (execute_ok ok)
  have endsAt : ∀ i, w.EndsAt target ticks (i + 1) ↔
      (w.perform o.1 o.2).bench.EndsAt target (ticks + 1) i := by
    intro i
    rw [executed]
    refine endsAt_succ ok ?_ ?_ ?_ target ticks i <;> rfl
  have machine : (w.perform o.1 o.2).bench.machine = m := by rw [executed]; rfl
  have entry : (w.perform o.1 o.2).changes = [.stepped (Machine.pc m)] := by rw [executed]; rfl
  constructor
  case machine => rw [Machine.advance?_succ ok, ← machine, rest.machine, after_cons]
  case changes =>
    have later := rest.changes
    rw [machine] at later
    rw [announced_cons, entry, List.filter_append, later, Machine.visited_succ ok]
    rfl
  case before =>
    intro i hi
    cases i with
    | zero => exact goes_on
    | succ i => exact fun ends => rest.before i (Nat.lt_of_succ_lt_succ hi) ((endsAt i).1 ends)
  case run =>
    obtain ⟨all, timer, own, run⟩ | ⟨some, ends, idle⟩ := rest.run
    · exact .inl ⟨congrArg (· + 1) all, timer, own, by
        rw [after_cons, run, Nat.add_right_comm, Nat.add_assoc]⟩
    · exact .inr ⟨Nat.succ_lt_succ some, (endsAt taken).2 ends, idle⟩

/-- What leaves the run alone. -/
theorem Progress.aside (aside : Aside w (w.perform o.1 o.2)) (active : w.mode ≠ .idle)
    (rest : Progress handle (w.perform o.1 o.2).bench target ticks n taken script) :
    Progress handle w target ticks n taken (o :: script) := by
  have move := move_perform w o.1 o.2
  have endsAt := endsAt_congr aside.machine (move.current_of_aside aside active)
    (move.sameSettings (.refl w)).targetLimit target ticks
  constructor
  case machine => rw [← aside.machine, rest.machine, after_cons]
  case changes =>
    rw [announced_cons, filter_isStep_append aside.changes, rest.changes, aside.machine]
  case before => exact fun i hi ends => rest.before i hi ((endsAt i).2 ends)
  case run =>
    obtain run | ⟨some, ends, idle⟩ := rest.run
    · exact .inl run
    · exact .inr ⟨some, (endsAt taken).1 ends, idle⟩

/-- Whatever attends to a run to a target takes steps until the run ends. -/
theorem Attended.progress (h : w.Attended handle script n)
    (run : w.run = .stepping timer target ticks) (own : timer.handle = handle)
    (ok : ∀ e, .halted e ∉ w.announced script) :
    ∃ taken, Progress handle w target ticks n taken script := by
  induction h generalizing timer ticks with
  | nil w =>
    exact ⟨0, rfl, rfl, fun i hi => absurd hi (Nat.not_lt_zero i), .inl ⟨rfl, timer, own, run⟩⟩
  | @tick w o script n tick rest ih =>
    subst own
    rw [announced_cons] at ok
    obtain ⟨ends, performed⟩ | ⟨goes_on, timer', own, performed⟩ := tick_toTarget run tick
    -- nothing is left to show of the rest: without a run all its ticks are dropped
    · exact ⟨0, .ended performed ends rest⟩
    · cases hs : Machine.step w.machine with
      | mk m result =>
        cases result with
        | error e =>
          have halted := performed.trans (execute_error hs)
          refine absurd (List.mem_append_left _ ?_) (ok e)
          rw [halted]
          exact List.mem_singleton_self _
        | ok =>
          have executed := performed.trans (execute_ok hs)
          have run' : (w.perform o.1 o.2).bench.run = .stepping timer' target (ticks + 1) := by
            rw [executed]
            rfl
          obtain ⟨taken, progress⟩ :=
            ih run' own fun e he => ok e (List.mem_append_right _ he)
          exact ⟨taken + 1, .step hs performed goes_on progress⟩
  | @aside w o script n aside rest ih =>
    rw [announced_cons] at ok
    have active : w.mode ≠ .idle := by
      rw [mode, run]
      exact nofun
    obtain ⟨taken, progress⟩ :=
      ih (aside.run.trans run) own fun e he => ok e (List.mem_append_right _ he)
    exact ⟨taken, .aside aside active progress⟩

/-! ### A run that has taken no step yet -/

theorem Progress.taken_eq (p : Progress handle w target 0 n taken script) :
    (taken : ℕ∞) = min (n : ℕ∞) (min (w.distance target) w.limit) := by
  obtain ⟨rfl, -⟩ | ⟨some, ends, -⟩ := p.run
  · exact (min_eq_left ((le_stop_iff w target taken).2 p.before)).symm
  · rw [stop_eq p.before ends]
    exact (min_eq_right (Nat.cast_le.2 (Nat.le_of_lt some))).symm

theorem Progress.mode_of_le (p : Progress handle w target 0 n taken script)
    (h : (n : ℕ∞) ≤ min (w.distance target) w.limit) :
    (w.after script).mode = .steppingToTarget := by
  obtain ⟨-, timer, -, run⟩ | ⟨some, ends, -⟩ := p.run
  · rw [mode, run]
    rfl
  · exact absurd ends ((le_stop_iff w target n).1 h taken some)

theorem Progress.mode_of_lt (p : Progress handle w target 0 n taken script)
    (h : min (w.distance target) w.limit < (n : ℕ∞)) : (w.after script).mode = .idle := by
  obtain ⟨rfl, -⟩ | ⟨-, -, idle⟩ := p.run
  · exact absurd ((le_stop_iff w target taken).2 p.before) (not_le.2 h)
  · rw [mode, idle]
    rfl

/-! ## What leaves a run alone -/

omit [Machine M] in
theorem aside_unchanged (w : Workbench M) (result : Except BenchError Unit) :
    Aside w (w.unchanged result) :=
  ⟨⟨rfl, nofun⟩, rfl⟩

omit [Machine M] in
theorem aside_of_change {o : Outcome M (Except BenchError Unit)}
    (machine : o.bench.machine = w.machine) (run : o.bench.run = w.run) (change : Change)
    (changes : o.changes = [change]) (h : change.isStep = false) : Aside w o := by
  refine ⟨⟨machine, fun c hc => ?_⟩, run⟩
  rw [changes] at hc
  obtain rfl := List.mem_singleton.1 hc
  exact h

/-- What is no tick of a run to a target and spares it leaves it alone. -/
theorem aside_of_sparesRun (under_way : w.mode = .steppingToTarget)
    (own : w.run.handle? = some handle) {now : Nat} {operation : Operation}
    (h : operation.sparesRun) (no_tick : w.delivers handle now operation = false) :
    Aside w (w.perform now operation) := by
  have busy : w.listing.isEmpty ∨ w.mode ≠ .idle := .inr (by rw [under_way]; exact nofun)
  have ignored (address : Word) : (w.runTo address now).done = w.unchanged (.ok ()) := by
    rw [runTo, if_pos busy]
    rfl
  cases operation with
  | poll =>
    rw [perform_of_not_delivers own (.inl rfl) no_tick]
    exact aside_unchanged w _
  | selectSpace space => exact aside_of_change rfl rfl (.spaceChanged space) rfl rfl
  | resizeWindow extent =>
    show Aside w (w.resizeWindow extent).done
    unfold resizeWindow
    split
    · exact aside_unchanged w _
    · exact aside_of_change rfl rfl .scrolled rfl rfl
  | command command =>
    cases command with
    | fire handle' =>
      rw [perform_of_not_delivers own (.inr ⟨handle', rfl⟩) no_tick]
      exact aside_unchanged w _
    | selectSpace name =>
      show Aside w (w.selectSpaceNamed name)
      unfold selectSpaceNamed
      split
      · next space _ => exact aside_of_change rfl rfl (.spaceChanged space) rfl rfl
      · exact aside_unchanged w _
    | selectRow address =>
      show Aside w (w.selectRow address).done
      unfold selectRow
      split
      · exact aside_of_change rfl rfl (.rowSelected address) rfl rfl
      · exact aside_unchanged w _
    | scroll | scrollTo => exact aside_of_change rfl rfl .scrolled rfl rfl
    | step =>
      show Aside w w.step
      rw [step, if_pos busy]
      exact aside_unchanged w _
    | run =>
      show Aside w (w.toggleRun now).done
      unfold toggleRun
      rw [under_way]
      split <;> exact aside_unchanged w _
    | pause =>
      show Aside w w.pause.done
      rw [pause, if_neg (by rw [under_way]; exact nofun)]
      exact aside_unchanged w _
    | runToTarget =>
      show Aside w (w.runToSelected now).done
      unfold runToSelected
      split
      · rw [ignored]
        exact aside_unchanged w _
      · exact aside_unchanged w _
    | runToAddress address =>
      show Aside w (w.runTo address now).done
      rw [ignored]
      exact aside_unchanged w _
    | _ => cases h

/-- With the mark of execution on the target, the machine is not touched. -/
theorem Attended.untouched (h : w.Attended handle (o :: script) n)
    (run : (∃ timer ticks, timer.handle = handle ∧ w.run = .stepping timer target ticks) ∨
      w.run = .idle) (current : w.cursor.current = target) :
    Untouched w (w.perform o.1 o.2) := by
  cases h with
  | aside aside rest => exact aside.toUntouched
  | tick tick rest =>
    obtain ⟨timer, ticks, rfl, run⟩ | idle := run
    · obtain ⟨-, performed⟩ | ⟨goes_on, -⟩ := tick_toTarget run tick
      · rw [performed]
        exact ⟨rfl, by simp [announce, Change.isStep]⟩
      · exact absurd (.inl (congrArg some current)) goes_on
    · rw [perform_of_delivers_idle idle tick]
      exact ⟨rfl, nofun⟩

/-! ## The whole run -/

/-- How far a run to a target has come after a script in which it got `n` ticks. -/
structure StopsOnTarget (w r : Workbench M) (target : Word) (n : ℕ) (script : Script) : Prop where
  /-- Every tick was a step until a place was reached where the run had to end. -/
  steps : ∃ taken : ℕ, (taken : ℕ∞) = min (n : ℕ∞) (min (w.distance target) w.limit) ∧
    Machine.advance? w.machine taken = some (r.after script).machine ∧
    (r.announced script).filter Change.isStep =
      (Machine.visited w.machine taken).map Change.stepped ∧
    (Machine.visited w.machine taken).length = taken
  goes_on : (n : ℕ∞) ≤ min (w.distance target) w.limit →
    (r.after script).mode = .steppingToTarget
  ended : min (w.distance target) w.limit < (n : ℕ∞) → (r.after script).mode = .idle
  /-- No step is taken with the mark of execution on the target. -/
  onTarget : ∀ before o rest, script = before ++ o :: rest →
    (r.after before).cursor.current = target →
    Untouched (r.after before) ((r.after before).perform o.1 o.2)

/-- **A run to a target stops exactly on it.**  Of `n` ticks as many are steps as it takes to
reach the target or the limit, whichever is nearer, and the tick after that ends the run.  This
holds whatever else happens, as long as no step fails and the machine and the run are left alone.
All that spares the run leaves them alone as long as it is under way, its ticks apart. -/
theorem run_to_target_stops_on_target (w : Workbench M) (program : w.listing.isEmpty = false)
    (idle : w.mode = .idle) (target : Word) (now : Nat) (script : Script) (n : ℕ)
    (attended : (w.runTo target now).bench.Attended (w.timersIssued + 1) script n)
    (ok : ∀ e, .halted e ∉ (w.runTo target now).bench.announced script) :
    StopsOnTarget w (w.runTo target now).bench target n script ∧
      ∀ (v : Workbench M) (handle now : Nat) (operation : Operation),
        v.mode = .steppingToTarget → v.run.handle? = some handle → operation.sparesRun →
        v.delivers handle now operation ∨ Aside v (v.perform now operation) := by
  constructor
  case right =>
    intro v handle now operation under_way own spares
    by_cases tick : v.delivers handle now operation
    · exact .inl tick
    · exact .inr (aside_of_sparesRun under_way own spares (Bool.eq_false_of_not_eq_true tick))
  rw [runTo_of_idle program idle] at attended ok ⊢
  have run : (w.begin now (.stepping · target 0)).bench.run =
    .stepping (.start (w.timersIssued + 1) w.cadence now) target 0 := rfl
  have machine : (w.begin now (.stepping · target 0)).bench.machine = w.machine := rfl
  have stop : min ((w.begin now (.stepping · target 0)).bench.distance target)
      (w.begin now (.stepping · target 0)).bench.limit = min (w.distance target) w.limit := by
    rw [distance_congr (v := (w.begin now (.stepping · target 0)).bench) machine rfl]
    rfl
  generalize (w.begin now (.stepping · target 0)).bench = r at *
  obtain ⟨taken, progress⟩ := attended.progress run rfl ok
  constructor
  case steps =>
    rw [← stop, ← machine]
    exact ⟨taken, progress.taken_eq, progress.machine, progress.changes,
      Machine.length_visited progress.machine⟩
  case goes_on =>
    rw [← stop]
    exact progress.mode_of_le
  case ended =>
    rw [← stop]
    exact progress.mode_of_lt
  case onTarget =>
    rintro first o rest rfl current
    obtain ⟨k, l, -, attended₁, attended₂⟩ := attended.split
    rw [announced_append] at ok
    -- before this operation the run had not ended or was over for good
    obtain ⟨_, progress⟩ :=
      attended₁.progress run rfl fun e he => ok e (List.mem_append_left _ he)
    refine attended₂.untouched ?_ current
    obtain ⟨-, timer, own, run⟩ | ⟨-, -, idle⟩ := progress.run
    · exact .inl ⟨timer, _, own, run⟩
    · exact .inr idle

/-- The target is two steps away, so the third tick ends the run. -/
theorem run_to_target_stops_on_target_threeNops :
    let script : Script := [(500, .poll), (600, .command (.scroll 1)), (700, .command .step),
      (1000, .poll), (1000, .command (.fire 1))]
    let r := (threeNops.runTo 2 0).bench
    r.Attended 1 script 3 ∧ r.announced script =
        [.stepped 1, .scrolled, .stepped 2, .modeChanged .idle] ∧
      min (threeNops.distance 2) threeNops.limit = (2 : ℕ) ∧ (r.after script).mode = .idle := by
  intro script r
  have program : threeNops.listing.isEmpty = false := by decide +kernel
  have idle : threeNops.mode = .idle := by decide +kernel
  have attended : r.Attended 1 script 3 := by
    refine .tick (by decide +kernel) (.aside ?scrolled (.aside ?stepped
      (.tick (by decide +kernel) (.tick (by decide +kernel) (.nil _)))))
    case scrolled =>
      have own : ((threeNops.runTo 2 0).bench.after [(500, .poll)]).run.handle? = some 1 := by
        decide +kernel
      exact aside_of_sparesRun (by decide +kernel) own rfl rfl
    case stepped =>
      have own : ((threeNops.runTo 2 0).bench.after
          [(500, .poll), (600, .command (.scroll 1))]).run.handle? = some 1 := by decide +kernel
      exact aside_of_sparesRun (by decide +kernel) own rfl rfl
  have announced : r.announced script =
      [.stepped 1, .scrolled, .stepped 2, .modeChanged .idle] := by decide +kernel
  have ok : ∀ e, .halted e ∉ r.announced script := by
    rw [announced]
    simp
  have stop : min (threeNops.distance 2) threeNops.limit = (2 : ℕ) :=
    stop_eq (by decide +kernel) (by decide +kernel)
  have stopped := (run_to_target_stops_on_target threeNops program idle 2 0 script 3 attended ok).1
  refine ⟨attended, announced, stop, stopped.ended ?_⟩
  rw [stop]
  exact Nat.cast_lt.2 (Nat.lt_succ_self 2)

end Workbench

end Trainer51
