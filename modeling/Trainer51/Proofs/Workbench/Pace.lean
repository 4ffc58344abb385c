import Trainer51.Proofs.Workbench.Announced
import Trainer51.Proofs.Workbench.Ticks

/-!
# The pace of a run

A timer counts from the poll that found it due, or from the beginning of its run.  Either way its
next tick is a cadence away, so no late poll, no halt and no change of runs brings two ticks closer
together than that.

    a poll gives a tick if there is a timer whose deadline has come        (givesTick_poll)
    an operation leaves the timer alone, ends it, or sets its deadline
      a cadence ahead                                                      (timing_perform)
    no tick of a script comes before a moment that all timers wait for     (Pace.ticksOf)
    the ticks of a new workbench                                           (paced_after_new)
-/

namespace Trainer51

theorem RunState.timer?_of_idle {r : RunState} (h : r.mode = .idle) : r.timer? = none := by
  rw [eq_idle_of_mode h]
  rfl

theorem RunState.timer?_withTimer {r : RunState} (h : r.timer? ≠ none) (timer : Ticker) :
    (r.withTimer timer).timer? = some timer := by
  cases r with
  | idle => exact absurd rfl h
  | running => rfl
  | stepping => rfl

/-- Times that lie a distance apart: between two moments there is room for few of them. -/
theorem length_mul_le {c start stop : Nat} {script : Script} (inside : ∀ o ∈ script, o.1 ≤ stop)
    (apart : script.Pairwise fun o p => o.1 + c ≤ p.1) (first : ∀ o ∈ script, start + c ≤ o.1) :
    script.length * c ≤ stop - start := by
  induction script generalizing start with
  | nil => simp
  | cons o script ih =>
    obtain ⟨next, apart⟩ := List.pairwise_cons.1 apart
    obtain ⟨first, -⟩ := List.forall_mem_cons.1 first
    obtain ⟨last, inside⟩ := List.forall_mem_cons.1 inside
    have rest : script.length * c ≤ stop - o.1 := ih inside apart next
    rw [List.length_cons, Nat.succ_mul]
    omega

namespace Workbench

variable {M : Type} [Machine M]

/-! ## Which operations give a tick -/

/-- Whether a tick came of it; one on which the machine failed is a tick too. -/
def gaveTick : Except BenchError Bool → Bool
  | .ok given => given
  | .error _ => true

/-- Whether an operation gives the run in progress a tick. -/
def givesTick (w : Workbench M) (now : Nat) : Operation → Bool
  | .poll => gaveTick (w.poll now).result
  | .command (.fire handle) => gaveTick (w.fire handle).result
  | _ => false

/-- The operations of a script that give a tick. -/
def ticksOf (w : Workbench M) : Script → Script
  | [] => []
  | o :: script =>
    let later := (w.perform o.1 o.2).bench.ticksOf script
    if w.givesTick o.1 o.2 then o :: later else later

theorem ticksOf_cons_of_tick {w : Workbench M} {o : Nat × Operation}
    (h : w.givesTick o.1 o.2 = true) (script : Script) :
    w.ticksOf (o :: script) = o :: (w.perform o.1 o.2).bench.ticksOf script :=
  if_pos h

theorem ticksOf_cons_of_not_tick {w : Workbench M} {o : Nat × Operation}
    (h : w.givesTick o.1 o.2 = false) (script : Script) :
    w.ticksOf (o :: script) = (w.perform o.1 o.2).bench.ticksOf script :=
  if_neg (by rw [h]; exact Bool.false_ne_true)

theorem ticksOf_append (w : Workbench M) (script later : Script) :
    w.ticksOf (script ++ later) = w.ticksOf script ++ (w.after script).ticksOf later := by
  induction script generalizing w with
  | nil => rfl
  | cons o script ih =>
    cases tick : w.givesTick o.1 o.2 with
    | true =>
      rw [List.cons_append, ticksOf_cons_of_tick tick, ticksOf_cons_of_tick tick, ih]
      rfl
    | false =>
      rw [List.cons_append, ticksOf_cons_of_not_tick tick, ticksOf_cons_of_not_tick tick, ih]
      rfl

theorem gaveTick_ticked (w : Workbench M) : gaveTick w.ticked.result = true := by
  show gaveTick (w.tick.result.map fun _ => true) = true
  cases w.tick.result with
  | ok => rfl
  | error => rfl

omit [Machine M] in
theorem early_or_due (w : Workbench M) (now : Nat) :
    (∀ timer, w.run.timer? = some timer → now < timer.deadline) ∨
      ∃ timer, w.run.timer? = some timer ∧ timer.deadline ≤ now := by
  by_cases due : ∃ timer, w.run.timer? = some timer ∧ timer.deadline ≤ now
  · exact .inr due
  · exact .inl fun timer own => Nat.lt_of_not_le fun le => due ⟨timer, own, le⟩

/-- However late a poll is. -/
theorem givesTick_poll {w : Workbench M} {now : Nat} :
    w.givesTick now .poll = true ↔ ∃ timer, w.run.timer? = some timer ∧ timer.deadline ≤ now := by
  constructor
  · intro tick
    obtain early | due := w.early_or_due now
    · rw [givesTick, poll_early early] at tick
      cases tick
    · exact due
  · rintro ⟨timer, own, due⟩
    rw [givesTick, poll_due own due]
    exact gaveTick_ticked _

/-! ## What becomes of the timer -/

/-- What may become of the timer at a time. -/
inductive Timing (w : Workbench M) (now : Nat) (v : Workbench M) : Prop where
  | kept (same : v.run.timer? = w.run.timer?)
  /-- The run is over. -/
  | gone (none : v.run.timer? = none)
  /-- A run has begun. -/
  | started (handle : Nat) (new : v.run.timer? = some (.start handle w.cadence now))
  /-- The timer was due. -/
  | again (timer : Ticker) (own : w.run.timer? = some timer)
      (later : v.run.timer? = some { timer with deadline := now + timer.period })

theorem timing_load (w : Workbench M) (now : Nat) (image : List Byte) :
    w.Timing now (w.load image).bench := by
  unfold load
  split
  · exact .kept rfl
  · dsimp only
    split
    · exact .gone rfl
    · exact .gone rfl

omit [Machine M] in
theorem timing_stop (w : Workbench M) (now : Nat) : w.Timing now w.stop.bench := by
  unfold stop
  split
  · exact .kept rfl
  · exact .gone rfl

omit [Machine M] in
theorem timing_pause (w : Workbench M) (now : Nat) : w.Timing now w.pause.bench := by
  unfold pause
  split
  · exact timing_stop w now
  · exact .kept rfl

omit [Machine M] in
theorem timing_toggleRun (w : Workbench M) (now : Nat) : w.Timing now (w.toggleRun now).bench := by
  unfold toggleRun
  split
  · exact .kept rfl
  · split
    · exact timing_pause w now
    · exact .kept rfl
    · exact .started _ rfl

omit [Machine M] in
theorem timing_runTo (w : Workbench M) (target : Word) (now : Nat) :
    w.Timing now (w.runTo target now).bench := by
  unfold runTo
  split
  · exact .kept rfl
  · exact .started _ rfl

theorem timer?_execute (w : Workbench M) :
    w.execute.bench.run.timer? = none ∨ w.execute.bench.run.timer? = w.run.timer? := by
  unfold execute
  split
  · exact .inr rfl
  · exact .inl rfl

/-- A tick leaves the timer of the run alone, unless the run is over. -/
theorem timer?_tick (w : Workbench M) :
    w.tick.bench.run.timer? = none ∨ w.tick.bench.run.timer? = w.run.timer? := by
  unfold tick
  split
  · exact .inr rfl
  · exact timer?_execute w
  · next timer target ticks run =>
    split
    · exact .inl rfl
    · rw [run]
      exact timer?_execute { w with run := .stepping timer target (ticks + 1) }

theorem timing_step (w : Workbench M) (now : Nat) : w.Timing now w.step.bench := by
  unfold step
  split
  · exact .kept rfl
  · obtain ended | same := timer?_execute w
    · exact .gone ended
    · exact .kept same

/-- A poll that gives a tick puts the next one off by a period. -/
theorem timer?_poll {w : Workbench M} {now : Nat} {timer : Ticker}
    (own : w.run.timer? = some timer) (due : timer.deadline ≤ now) :
    (w.poll now).bench.run.timer? = none ∨
      (w.poll now).bench.run.timer? = some { timer with deadline := now + timer.period } := by
  have some : w.run.timer? ≠ none := by
    rw [own]
    exact nofun
  rw [poll_due own due, ← RunState.timer?_withTimer some]
  exact timer?_tick _

theorem timing_poll (w : Workbench M) (now : Nat) : w.Timing now (w.poll now).bench := by
  obtain early | ⟨timer, own, due⟩ := w.early_or_due now
  · rw [poll_early early]
    exact .kept rfl
  · obtain ended | later := timer?_poll own due
    · exact .gone ended
    · exact .again timer own later

theorem timing_fire (w : Workbench M) (now handle : Nat) :
    w.Timing now (w.fire handle).bench := by
  unfold fire
  split
  · obtain ended | same := timer?_tick w
    · exact .gone ended
    · exact .kept same
  · exact .kept rfl

theorem timing_perform (w : Workbench M) (now : Nat) (operation : Operation) :
    w.Timing now (w.perform now operation).bench := by
  cases operation with
  | poll => exact timing_poll w now
  | selectSpace space => exact .kept rfl
  | resizeWindow extent =>
    show w.Timing now (w.resizeWindow extent).bench
    unfold resizeWindow
    split
    · exact .kept rfl
    · exact .kept rfl
  | command command =>
    cases command with
    | load image => exact timing_load w now image
    | step => exact timing_step w now
    | run => exact timing_toggleRun w now
    | pause => exact timing_pause w now
    | stop => exact timing_stop w now
    | runToTarget =>
      show w.Timing now (w.runToSelected now).bench
      unfold runToSelected
      split
      · exact timing_runTo w _ now
      · exact .kept rfl
    | runToAddress address => exact timing_runTo w address now
    | fire handle => exact timing_fire w now handle
    | reset => exact .gone rfl
    | refresh | scroll | scrollTo => exact .kept rfl
    | selectSpace name =>
      show w.Timing now (w.selectSpaceNamed name).bench
      unfold selectSpaceNamed
      split
      · exact .kept rfl
      · exact .kept rfl
    | selectRow address =>
      show w.Timing now (w.selectRow address).bench
      unfold selectRow
      split
      · exact .kept rfl
      · exact .kept rfl
    | pressKey key =>
      show w.Timing now (w.pressKey key).bench
      unfold pressKey
      split
      · exact .kept rfl
      · exact .kept rfl
    | releaseKey key =>
      show w.Timing now (w.releaseKey key).bench
      unfold releaseKey
      split
      · exact .kept rfl
      · exact .kept rfl
    | releasePointer =>
      show w.Timing now w.releaseAllKeys.bench
      unfold releaseAllKeys
      split
      · exact .kept rfl
      · exact .kept rfl

/-! ## The pace -/

/-- Ticks come at a distance `c`, and the next one not before `b`. -/
structure Pace (c b : Nat) (w : Workbench M) : Prop where
  cadence : w.cadence = c
  timer : ∀ timer, w.run.timer? = some timer → timer.period = c ∧ b ≤ timer.deadline

variable {w v : Workbench M} {c b now : Nat} {script : Script}

omit [Machine M] in
theorem pace_of_idle (idle : w.mode = .idle) (b : Nat) : Pace w.cadence b w where
  cadence := rfl
  timer timer own := by cases (RunState.timer?_of_idle idle).symm.trans own

omit [Machine M] in
/-- A deadline that is set anew is a cadence ahead. -/
theorem Timing.pace (timing : w.Timing now v) (h : Pace c b w) (cadence : v.cadence = w.cadence)
    (soon : b ≤ now + c) : Pace c b v where
  cadence := cadence.trans h.cadence
  timer timer own := by
    cases timing with
    | kept same => exact h.timer timer (same.symm.trans own)
    | gone none => cases none.symm.trans own
    | started handle new =>
      cases new.symm.trans own
      rw [Ticker.start, h.cadence]
      exact ⟨rfl, soon⟩
    | again timer' own' later =>
      cases later.symm.trans own
      have period : timer'.period = c := (h.timer timer' own').1
      refine ⟨period, ?_⟩
      show b ≤ now + timer'.period
      rw [period]
      exact soon

theorem cadence_perform (w : Workbench M) (now : Nat) (operation : Operation) :
    (w.perform now operation).bench.cadence = w.cadence :=
  (sameSettings_after w [(now, operation)]).cadence

theorem Pace.perform (h : Pace c b w) (soon : b ≤ now + c) (operation : Operation) :
    Pace c b (w.perform now operation).bench :=
  (timing_perform w now operation).pace h (cadence_perform w now operation) soon

theorem Pace.after (h : Pace c b w) (soon : ∀ o ∈ script, b ≤ o.1 + c) :
    Pace c b (w.after script) := by
  induction script generalizing w with
  | nil => exact h
  | cons o script ih =>
    obtain ⟨first, soon⟩ := List.forall_mem_cons.1 soon
    exact ih (h.perform first o.2) soon

/-- A poll gives a tick when it is time for one, and puts off the next. -/
theorem Pace.tick (h : Pace c b w) (tick : w.givesTick now .poll = true) :
    b ≤ now ∧ Pace c (now + c) (w.perform now .poll).bench := by
  obtain ⟨timer, own, due⟩ := givesTick_poll.1 tick
  obtain ⟨period, deadline⟩ := h.timer timer own
  refine ⟨Nat.le_trans deadline due, (cadence_perform w now .poll).trans h.cadence, ?_⟩
  intro timer' own'
  obtain ended | later := timer?_poll own due
  · cases ended.symm.trans own'
  · cases later.symm.trans own'
    exact ⟨period, Nat.add_le_add_left (Nat.le_of_eq period.symm) now⟩

/-- The ticks of a script that polls give: none comes before `b`, and each is `c` after the one
before. -/
theorem Pace.ticksOf (h : Pace c b w) (soon : ∀ o ∈ script, b ≤ o.1 + c)
    (inTime : script.Pairwise (·.1 ≤ ·.1)) (polled : ∀ o ∈ w.ticksOf script, o.2 = .poll) :
    (∀ o ∈ w.ticksOf script, b ≤ o.1) ∧
      (w.ticksOf script).Pairwise fun o p => o.1 + c ≤ p.1 := by
  -- a tick moves the bound to a cadence after it, everything else leaves it where it is
  induction script generalizing w b with
  | nil => exact ⟨nofun, .nil⟩
  | cons o script ih =>
    obtain ⟨first, soon⟩ := List.forall_mem_cons.1 soon
    obtain ⟨next, inTime⟩ := List.pairwise_cons.1 inTime
    cases tick : w.givesTick o.1 o.2 with
    | false =>
      rw [ticksOf_cons_of_not_tick tick] at polled ⊢
      exact ih (h.perform first o.2) soon inTime polled
    | true =>
      rw [ticksOf_cons_of_tick tick] at polled ⊢
      obtain ⟨poll, polled⟩ := List.forall_mem_cons.1 polled
      rw [poll] at tick
      obtain ⟨due, later⟩ := h.tick tick
      rw [← poll] at later
      have soon : ∀ p ∈ script, o.1 + c ≤ p.1 + c :=
        fun p member => Nat.add_le_add_right (next p member) c
      obtain ⟨after, apart⟩ := ih later soon inTime polled
      refine ⟨List.forall_mem_cons.2 ⟨due, ?_⟩, List.pairwise_cons.2 ⟨after, apart⟩⟩
      exact fun p member => Nat.le_trans due (Nat.le_trans (Nat.le_add_right _ _) (after p member))

/-- A run that begins now gets no tick before a cadence is over. -/
theorem pace_of_idle_before (idle : w.mode = .idle) (now : Nat) (operation : Operation) :
    Pace w.cadence (now + w.cadence) (w.perform now operation).bench :=
  (pace_of_idle idle _).perform (Nat.le_refl _) operation

/-! ## One poll -/

theorem machine_execute (w : Workbench M) :
    w.execute.bench.machine = (Machine.step w.machine).1 := by
  unfold execute
  split
  · next machine step =>
    rw [step]
    rfl
  · next machine e step =>
    rw [step]
    rfl

theorem machine_tick (w : Workbench M) :
    w.tick.bench.machine = w.machine ∨ w.tick.bench.machine = (Machine.step w.machine).1 := by
  unfold tick
  split
  · exact .inl rfl
  · exact .inr (machine_execute w)
  · split
    · exact .inl rfl
    · exact .inr (machine_execute _)

/-- What a poll does, however late it is. -/
structure PolledOnce (w : Workbench M) (now : Nat) : Prop where
  due : gaveTick (w.poll now).result = w.deadline?.any (· ≤ now)
  /-- The machine takes a step at most. -/
  machine : (w.poll now).bench.machine = w.machine ∨
    (w.poll now).bench.machine = (Machine.step w.machine).1
  brief : (w.poll now).changes.length ≤ 1
  later : ∀ deadline, (w.poll now).bench.deadline? = some deadline → now < deadline
  /-- Polling again at the same moment is of no use. -/
  again : (w.poll now).bench.poll now = (w.poll now).bench.unchanged (.ok false)

/-- After a poll the deadline is in the future. -/
theorem Pace.lt_deadline (h : Pace c b w) (positive : 0 < c) (now : Nat) :
    ∀ timer, (w.poll now).bench.run.timer? = some timer → now < timer.deadline := by
  intro timer own
  obtain early | ⟨timer', own', due⟩ := w.early_or_due now
  · rw [poll_early early] at own
    exact early timer own
  · obtain ended | later := timer?_poll own' due
    · cases ended.symm.trans own
    · cases later.symm.trans own
      show now < now + timer'.period
      rw [(h.timer timer' own').1]
      exact Nat.lt_add_of_pos_right positive

theorem Pace.polledOnce (h : Pace c b w) (positive : 0 < c) (now : Nat) : w.PolledOnce now where
  due := by
    rw [Bool.eq_iff_iff, deadline?]
    refine givesTick_poll.trans ?_
    cases w.run.timer? with
    | none => simp
    | some timer => simp
  machine := by
    obtain early | ⟨timer, own, due⟩ := w.early_or_due now
    · rw [poll_early early]
      exact .inl rfl
    · rw [poll_due own due]
      exact machine_tick _
  brief := (keyless_poll w now).brief
  later deadline next := by
    obtain ⟨timer, own, rfl⟩ := Option.map_eq_some_iff.1 next
    exact h.lt_deadline positive now timer own
  again := poll_early (h.lt_deadline positive now)

/-! ## The ticks of a workbench -/

/-- How the ticks of a script lie in time. -/
structure Paced (w : Workbench M) (c : Nat) (script : Script) : Prop where
  /-- Any two of them, whether of one run or of two. -/
  apart : (w.ticksOf script).Pairwise fun o p => o.1 + c ≤ p.1
  /-- A run begins where none is in progress, and its first tick comes a cadence later. -/
  begun : ∀ before o rest, script = before ++ o :: rest → (w.after before).mode = .idle →
    ∀ p ∈ (w.after (before ++ [o])).ticksOf rest, o.1 + c ≤ p.1
  /-- However often runs are stopped and begun, between two moments there is room for few. -/
  rate : ∀ start stop,
    (((w.ticksOf script).filter fun o => start ≤ o.1 ∧ o.1 ≤ stop).length - 1) * c ≤ stop - start

/-- A stretch of time has room for as many ticks as there are cadences in it, and one more. -/
theorem length_filter_mul_le (apart : script.Pairwise fun o p => o.1 + c ≤ p.1)
    (start stop : Nat) :
    ((script.filter fun o => start ≤ o.1 ∧ o.1 ≤ stop).length - 1) * c ≤ stop - start := by
  have inside : ∀ o ∈ script.filter fun o => start ≤ o.1 ∧ o.1 ≤ stop, start ≤ o.1 ∧ o.1 ≤ stop :=
    fun o member => by simpa using (List.mem_filter.1 member).2
  replace apart := apart.filter fun o => start ≤ o.1 ∧ o.1 ≤ stop
  generalize script.filter (fun o => start ≤ o.1 ∧ o.1 ≤ stop) = ticks at inside apart
  cases ticks with
  | nil => simp
  | cons o ticks =>
    obtain ⟨⟨first, -⟩, inside⟩ := List.forall_mem_cons.1 inside
    obtain ⟨next, apart⟩ := List.pairwise_cons.1 apart
    have rest := length_mul_le (fun p member => (inside p member).2) apart next
    exact Nat.le_trans rest (Nat.sub_le_sub_left first stop)

theorem paced (idle : w.mode = .idle) (inTime : script.Pairwise (·.1 ≤ ·.1))
    (polled : ∀ o ∈ w.ticksOf script, o.2 = .poll) : w.Paced w.cadence script := by
  have apart := ((pace_of_idle idle 0).ticksOf (fun _ _ => Nat.zero_le _) inTime polled).2
  refine ⟨apart, ?_, length_filter_mul_le apart⟩
  rintro before o rest rfl idle
  have cadence := (sameSettings_after w before).cadence
  have pace := pace_of_idle_before idle o.1 o.2
  rw [← after_concat, cadence] at pace
  rw [List.append_cons, ticksOf_append] at polled
  obtain ⟨next, inTime⟩ := List.pairwise_cons.1 (List.pairwise_append.1 inTime).2.1
  have soon : ∀ p ∈ rest, o.1 + w.cadence ≤ p.1 + w.cadence :=
    fun p member => Nat.add_le_add_right (next p member) _
  exact (pace.ticksOf soon inTime fun p member => polled p (List.mem_append_right _ member)).1

/-- **Ticks keep the cadence.**  At times that never go back, and with ticks from polls only, any
two ticks are a cadence apart, whether they are of one run or of two; the first one of a run comes
a cadence after it began; and no stretch of time has more of them than there is room for.  A poll
gives one tick at most, however late it is, and after it the next deadline lies in the future, so
polling again at the same moment does nothing.  The cadence is never zero. -/
theorem paced_after_new (machine : M) (lister : Lister) (s : Settings) (script : Script)
    (inTime : script.Pairwise (·.1 ≤ ·.1))
    (polled : ∀ o ∈ (new machine lister s).ticksOf script, o.2 = .poll) :
    0 < s.effectiveCadence ∧
      (new machine lister s).Paced s.effectiveCadence script ∧
      ∀ now, ((new machine lister s).after script).PolledOnce now := by
  have positive : 0 < s.effectiveCadence := Nat.le_max_right _ 1
  have idle : (new machine lister s).mode = .idle := rfl
  refine ⟨positive, paced idle inTime polled, fun now => ?_⟩
  have pace : Pace s.effectiveCadence 0 ((new machine lister s).after script) :=
    (pace_of_idle idle 0).after fun _ _ => Nat.zero_le _
  exact pace.polledOnce positive now

/-- Runs to where execution is end with their first tick.  The second one is stopped right before
that, and the third has to wait for it as long again. -/
theorem paced_after_new_restarted :
    let run : Operation := .command (.runToAddress 0)
    let script : Script := [(0, .command (.load [0x00])), (0, run), (650, .poll), (650, run),
      (1149, .poll), (1149, .command .stop), (1149, run), (1200, .poll), (1700, .poll)]
    oneNop.ticksOf script = [(650, .poll), (1700, .poll)] ∧ oneNop.Paced 500 script ∧
      (oneNop.after script).PolledOnce 5000 := by
  intro run script
  have ticks : oneNop.ticksOf [(0, .command (.load [0x00])), (0, .command (.runToAddress 0)),
      (650, .poll), (650, .command (.runToAddress 0)), (1149, .poll), (1149, .command .stop),
      (1149, .command (.runToAddress 0)), (1200, .poll), (1700, .poll)] =
    [(650, .poll), (1700, .poll)] := by decide +kernel
  have inTime : script.Pairwise (·.1 ≤ ·.1) := by decide
  have polled : ∀ o ∈ oneNop.ticksOf script, o.2 = .poll := by
    rw [ticks]
    decide
  obtain ⟨-, paced, once⟩ := paced_after_new oneNop.machine oneNop.lister {} script inTime polled
  exact ⟨ticks, paced, once 5000⟩

end Workbench

end Trainer51
