import Trainer51.Proofs.Workbench.Moves

/-!
# The queue of a console

Commands come from any number of senders and at any moment, also while a pump is in progress.  So a
pump is taken apart into turns: in each of them it takes the command that is first in the queue, or
finds none and returns.  An exchange is a console between whose turns commands come in.

    a pump that nobody interrupts is a series of turns                        (exists_turns)
    the commands sent are those applied and then those queued                 (Orderly.sent)
    pumping until no command fails applies the whole queue                    (pumped_until_ok)
    every exchange                                                 (commands_applied_in_order)
-/

namespace Trainer51

/-- What can happen at a console. -/
inductive ConsoleEvent where
  /-- A sender puts a command in. -/
  | send (sender : Nat) (command : Command)
  /-- The pump in progress, or a new one if there is none, takes its next turn at a time. -/
  | turn (now : Nat)
  deriving DecidableEq, Repr

/-- What a pump did that has returned. -/
structure PumpReturn where
  /-- The commands that it applied, each with the time. -/
  applied : List (Nat × Command)
  result : Except BenchError Nat
  /-- The commands that were queued when it returned. -/
  left : List Command

/-- The commands that some pumps have applied, one pump after the other. -/
def appliedBy (pumps : List PumpReturn) : List (Nat × Command) := pumps.flatMap (·.applied)

theorem appliedBy_concat (pumps : List PumpReturn) (p : PumpReturn) :
    appliedBy (pumps ++ [p]) = appliedBy pumps ++ p.applied := by
  simp [appliedBy]

/-- A console at work, with its history. -/
structure Exchange (M : Type) where
  console : Console M
  /-- The commands sent, each with its sender. -/
  sent : List (Nat × Command) := []
  /-- The pumps that have returned. -/
  pumps : List PumpReturn := []
  /-- The commands that the pump in progress has applied, each with the time. -/
  taken : List (Nat × Command) := []
  /-- How many commands the pump in progress has counted. -/
  count : Nat := 0

/-- Commands to be applied, as a script. -/
def script (timed : List (Nat × Command)) : Script := timed.map fun c => (c.1, .command c.2)

theorem script_append (timed later : List (Nat × Command)) :
    script (timed ++ later) = script timed ++ script later :=
  List.map_append

namespace Console

variable {M : Type} [Machine M] {w : Workbench M} {now n : Nat} {command : Command}
  {queue : List Command}

theorem pumpQueue_ok (ok : (w.apply now command).result = .ok ()) :
    pumpQueue now n w (command :: queue) =
      { pumpQueue now (n + 1) (w.apply now command).bench queue with
        changes := (w.apply now command).changes ++
          (pumpQueue now (n + 1) (w.apply now command).bench queue).changes } := by
  rw [pumpQueue]
  simp only [ok]

theorem pumpQueue_error {e : BenchError} (error : (w.apply now command).result = .error e) :
    pumpQueue now n w (command :: queue) =
      ⟨⟨(w.apply now command).bench, queue⟩, (w.apply now command).changes, .error e⟩ := by
  rw [pumpQueue]
  simp only [error]

end Console

namespace Exchange

/-- A console before its first turn.  What is queued may have come from anyone. -/
def start {M : Type} (c : Console M) : Exchange M :=
  { console := c, sent := c.queue.map fun command => (0, command) }

/-- The commands applied, each with the time. -/
def applied {M : Type} (x : Exchange M) : List (Nat × Command) := appliedBy x.pumps ++ x.taken

/-- A pump has just returned. -/
theorem applied_of_returned {M : Type} {x : Exchange M} {pumps : List PumpReturn} {p : PumpReturn}
    (returned : x.pumps = pumps ++ [p]) (none : x.taken = []) :
    x.applied = appliedBy pumps ++ p.applied := by
  rw [applied, returned, none, appliedBy_concat, List.append_nil]

variable {M : Type} [Machine M]

/-- One turn of a pump. -/
def turn (x : Exchange M) (now : Nat) : Exchange M :=
  match x.console.queue with
  | [] => { x with pumps := x.pumps ++ [⟨x.taken, .ok x.count, []⟩], taken := [], count := 0 }
  | command :: queue =>
    let o := x.console.bench.apply now command
    let console := { bench := o.bench, queue }
    let taken := x.taken ++ [(now, command)]
    match o.result with
    | .ok () => { x with console, taken, count := x.count + 1 }
    | .error e =>
      { x with console, pumps := x.pumps ++ [⟨taken, .error e, queue⟩], taken := [], count := 0 }

def perform (x : Exchange M) : ConsoleEvent → Exchange M
  | .send sender command =>
    { x with console := x.console.send command, sent := x.sent ++ [(sender, command)] }
  | .turn now => x.turn now

def after (x : Exchange M) (events : List ConsoleEvent) : Exchange M := events.foldl perform x

/-! ## Turns -/

theorem turn_nil {x : Exchange M} (h : x.console.queue = []) (now : Nat) :
    x.turn now =
      { x with pumps := x.pumps ++ [⟨x.taken, .ok x.count, []⟩], taken := [], count := 0 } := by
  unfold turn
  rw [h]

theorem turn_ok {x : Exchange M} {command : Command} {queue : List Command} {now : Nat}
    (h : x.console.queue = command :: queue)
    (ok : (x.console.bench.apply now command).result = .ok ()) :
    x.turn now =
      { x with
        console := ⟨(x.console.bench.apply now command).bench, queue⟩
        taken := x.taken ++ [(now, command)]
        count := x.count + 1 } := by
  unfold turn
  simp only [h, ok]

theorem turn_error {x : Exchange M} {command : Command} {queue : List Command} {now : Nat}
    {e : BenchError} (h : x.console.queue = command :: queue)
    (error : (x.console.bench.apply now command).result = .error e) :
    x.turn now =
      { x with
        console := ⟨(x.console.bench.apply now command).bench, queue⟩
        pumps := x.pumps ++ [⟨x.taken ++ [(now, command)], .error e, queue⟩]
        taken := []
        count := 0 } := by
  unfold turn
  simp only [h, error]

/-- A pump that nobody interrupts is a series of turns, all at the time of the pump. -/
theorem exists_turns (x : Exchange M) (now : Nat) :
    let p := Console.pumpQueue now x.count x.console.bench x.console.queue
    ∃ turns applied, (∀ a ∈ applied, a.1 = now) ∧
      x.after (List.replicate turns (.turn now)) =
        { x with
          console := p.console
          pumps := x.pumps ++ [⟨x.taken ++ applied, p.result, p.console.queue⟩]
          taken := []
          count := 0 } := by
  generalize queued : x.console.queue = queue
  induction queue generalizing x with
  | nil =>
    refine ⟨1, [], nofun, ?_⟩
    rw [List.append_nil]
    refine (turn_nil queued now).trans ?_
    unfold Console.pumpQueue
    rw [← queued]
  | cons command queue ih =>
    cases result : (x.console.bench.apply now command).result with
    | ok =>
      have turn := turn_ok queued result
      obtain ⟨turns, applied, times, rest⟩ := ih (x.turn now) (by rw [turn])
      refine ⟨turns + 1, (now, command) :: applied, List.forall_mem_cons.2 ⟨rfl, times⟩, ?_⟩
      refine Eq.trans (b := (x.turn now).after (List.replicate turns (.turn now))) rfl ?_
      rw [rest, turn, Console.pumpQueue_ok result]
      simp
    | error e =>
      refine ⟨1, [(now, command)], List.forall_mem_singleton.2 rfl,
        (turn_error queued result).trans ?_⟩
      rw [Console.pumpQueue_error result]

/-! ## Order -/

/-- Commands succeed, one after the other. -/
def Succeed (w : Workbench M) (timed : List (Nat × Command)) : Prop :=
  ∀ entry ∈ w.log (script timed), entry.2 = .ok ()

/-- How a pump comes to return. -/
inductive Returns (w : Workbench M) : PumpReturn → Prop where
  /-- It has applied all that was queued and counted it. -/
  | emptied (applied : List (Nat × Command)) (ok : Succeed w applied) :
      Returns w ⟨applied, .ok applied.length, []⟩
  /-- A command fails after others that have not. -/
  | failed (before : List (Nat × Command)) (now : Nat) (command : Command) (e : BenchError)
      (left : List Command) (ok : Succeed w before)
      (error : ((w.after (script before)).apply now command).result = .error e) :
      Returns w ⟨before ++ [(now, command)], .error e, left⟩

/-- Nothing that has been sent to a workbench is lost, repeated or out of order. -/
structure Orderly (w : Workbench M) (x : Exchange M) : Prop where
  /-- First the commands applied, then those queued. -/
  sent : x.sent.map (·.2) = x.applied.map (·.2) ++ x.console.queue
  /-- Each of them has been applied once, also those that failed. -/
  bench : x.console.bench = w.after (script x.applied)
  /-- A pump applies what the pumps before it have left, and leaves what it has not applied. -/
  returned : ∀ before p, before ++ [p] <+: x.pumps →
    Returns (w.after (script (appliedBy before))) p ∧
      (appliedBy (before ++ [p])).map (·.2) ++ p.left <+: x.sent.map (·.2)
  /-- As long as a pump is in progress none of its commands has failed. -/
  taken : Succeed (w.after (script (appliedBy x.pumps))) x.taken
  count : x.count = x.taken.length

variable {w : Workbench M} {x : Exchange M}

theorem after_script_concat (w : Workbench M) (timed : List (Nat × Command)) (now : Nat)
    (command : Command) :
    w.after (script (timed ++ [(now, command)])) =
      ((w.after (script timed)).apply now command).bench := by
  rw [script_append]
  exact Workbench.after_concat w (script timed) (now, .command command)

theorem succeed_concat {timed : List (Nat × Command)} {now : Nat} {command : Command}
    (h : Succeed w timed) (ok : ((w.after (script timed)).apply now command).result = .ok ()) :
    Succeed w (timed ++ [(now, command)]) := by
  intro entry member
  rw [script_append, Workbench.log_append] at member
  obtain before | last := List.mem_append.1 member
  · exact h entry before
  · rw [List.mem_singleton.1 last]
    exact ok

theorem Orderly.bench_taken (h : x.Orderly w) :
    x.console.bench =
      (w.after (script (appliedBy x.pumps))).after (script x.taken) := by
  rw [h.bench, applied, script_append, Workbench.after_append]

/-- One pump more has returned. -/
theorem Orderly.returned_concat (h : x.Orderly w) {p : PumpReturn}
    (returns : Returns (w.after (script (appliedBy x.pumps))) p)
    (left : (appliedBy (x.pumps ++ [p])).map (·.2) ++ p.left = x.sent.map (·.2)) :
    ∀ before q, before ++ [q] <+: x.pumps ++ [p] →
      Returns (w.after (script (appliedBy before))) q ∧
        (appliedBy (before ++ [q])).map (·.2) ++ q.left <+: x.sent.map (·.2) := by
  intro before q member
  obtain last | earlier := List.prefix_concat_iff.1 member
  · obtain ⟨rfl, same⟩ := List.append_inj' last rfl
    cases same
    exact ⟨returns, left ▸ List.prefix_rfl⟩
  · exact h.returned before q earlier

theorem Orderly.send (h : x.Orderly w) (sender : Nat) (command : Command) :
    (x.perform (.send sender command)).Orderly w where
  sent := by
    show (x.sent ++ [(sender, command)]).map (·.2) = x.applied.map (·.2) ++ (x.console.queue ++ _)
    rw [List.map_append, h.sent, List.append_assoc]
    rfl
  bench := h.bench
  returned before p member := by
    obtain ⟨returns, left⟩ := h.returned before p member
    refine ⟨returns, left.trans ?_⟩
    show x.sent.map (·.2) <+: (x.sent ++ [(sender, command)]).map (·.2)
    rw [List.map_append]
    exact List.prefix_append _ _
  taken := h.taken
  count := h.count

/-- The next command is applied. -/
theorem Orderly.next (h : x.Orderly w) {command : Command} {queue : List Command}
    (queued : x.console.queue = command :: queue) (now : Nat) :
    x.sent.map (·.2) =
        (appliedBy x.pumps ++ (x.taken ++ [(now, command)])).map (·.2) ++ queue ∧
      (x.console.bench.apply now command).bench =
        w.after (script (appliedBy x.pumps ++ (x.taken ++ [(now, command)]))) := by
  rw [← List.append_assoc]
  constructor
  · rw [h.sent, queued, applied]
    simp
  · rw [after_script_concat, h.bench, applied]

/-- A turn that finds nothing queued. -/
theorem Orderly.emptied (h : x.Orderly w) (queued : x.console.queue = []) (now : Nat) :
    (x.turn now).Orderly w := by
  have all : x.sent.map (·.2) = x.applied.map (·.2) := by
    rw [h.sent, queued, List.append_nil]
  rw [turn_nil queued now]
  constructor
  case sent => rw [applied_of_returned rfl rfl, h.sent, applied]
  case bench => rw [applied_of_returned rfl rfl, h.bench, applied]
  case returned =>
    refine h.returned_concat ?_ ?_
    · rw [h.count]
      exact .emptied x.taken h.taken
    · rw [all, appliedBy_concat, List.append_nil, applied]
  case taken => exact fun _ member => nomatch member
  case count => rfl

/-- A turn that takes a command that succeeds. -/
theorem Orderly.succeeded (h : x.Orderly w) {command : Command} {queue : List Command} {now : Nat}
    (queued : x.console.queue = command :: queue)
    (ok : (x.console.bench.apply now command).result = .ok ()) : (x.turn now).Orderly w := by
  obtain ⟨sent, bench⟩ := h.next queued now
  rw [turn_ok queued ok]
  rw [h.bench_taken] at ok
  constructor
  case sent => exact sent
  case bench => exact bench
  case returned => exact h.returned
  case taken => exact succeed_concat h.taken ok
  case count =>
    show x.count + 1 = (x.taken ++ [(now, command)]).length
    rw [h.count, List.length_append, List.length_singleton]

/-- A turn that takes a command that fails. -/
theorem Orderly.failed (h : x.Orderly w) {command : Command} {queue : List Command} {now : Nat}
    {e : BenchError} (queued : x.console.queue = command :: queue)
    (error : (x.console.bench.apply now command).result = .error e) :
    (x.turn now).Orderly w := by
  obtain ⟨sent, bench⟩ := h.next queued now
  rw [turn_error queued error]
  rw [h.bench_taken] at error
  constructor
  case sent => rw [applied_of_returned rfl rfl, sent]
  case bench => rw [applied_of_returned rfl rfl, bench]
  case returned =>
    refine h.returned_concat (.failed x.taken now command e queue h.taken error) ?_
    rw [sent, appliedBy_concat]
  case taken => exact fun _ member => nomatch member
  case count => rfl

theorem Orderly.turn (h : x.Orderly w) (now : Nat) : (x.turn now).Orderly w := by
  cases queued : x.console.queue with
  | nil => exact h.emptied queued now
  | cons command queue =>
    cases result : (x.console.bench.apply now command).result with
    | ok => exact h.succeeded queued result
    | error e => exact h.failed queued result

theorem orderly_start (c : Console M) : (start c).Orderly c.bench where
  sent := by simp [start, applied, appliedBy, Function.comp_def]
  bench := rfl
  returned before p member := by
    have length := member.length_le
    simp [start] at length
  taken _ member := nomatch member
  count := rfl

theorem Orderly.after (h : x.Orderly w) (events : List ConsoleEvent) :
    (x.after events).Orderly w := by
  induction events generalizing x with
  | nil => exact h
  | cons event events ih =>
    cases event with
    | send sender command => exact ih (h.send sender command)
    | turn now => exact ih (h.turn now)

end Exchange

/-! ## Pumping until no command fails -/

namespace Console

variable {M : Type} [Machine M]

open Exchange

/-- What a pump that nobody interrupts applies, and how it comes to return. -/
theorem pump_cases (c : Console M) (now : Nat) :
    ∃ applied, (∀ a ∈ applied, a.1 = now) ∧
      c.queue = applied.map (·.2) ++ (c.pump now).console.queue ∧
      (c.pump now).console.bench = c.bench.after (script applied) ∧
      Returns c.bench ⟨applied, (c.pump now).result, (c.pump now).console.queue⟩ := by
  obtain ⟨turns, applied, times, after⟩ := (start c).exists_turns now
  have orderly := (orderly_start c).after (List.replicate turns (.turn now))
  rw [after] at orderly
  have queue : (start c).sent.map (·.2) = c.queue := by simp [start, Function.comp_def]
  have sent := orderly.sent
  have bench := orderly.bench
  rw [applied_of_returned rfl rfl] at sent bench
  obtain ⟨returns, -⟩ := orderly.returned [] _ List.prefix_rfl
  exact ⟨applied, times, queue.symm.trans sent, bench, returns⟩

/-- The console after a number of pumps, each at its time. -/
def pumped (c : Console M) (clock : Nat → Nat) : Nat → Console M
  | 0 => c
  | n + 1 => (c.pump (clock 0)).console.pumped (fun i => clock (i + 1)) n

/-- The first of some pumps fail, the one after them does not, and the queue has been applied. -/
structure Drained (c : Console M) (clock : Nat → Nat) (n : Nat) : Prop where
  failed : ∀ i < n, ∃ e, ((c.pumped clock i).pump (clock i)).result = .error e
  ok : ∃ count, ((c.pumped clock n).pump (clock n)).result = .ok count
  /-- One by one and in order, whether or not they failed. -/
  applied : ∃ timed : List (Nat × Command), timed.map (·.2) = c.queue ∧
    (∀ a ∈ timed, ∃ i ≤ n, a.1 = clock i) ∧
    c.pumped clock (n + 1) = ⟨c.bench.after (script timed), []⟩

/-- A pump that returns without a failure. -/
theorem Drained.now {c : Console M} {clock : Nat → Nat} {applied : List (Nat × Command)}
    {count : Nat} (times : ∀ a ∈ applied, a.1 = clock 0) (queue : c.queue = applied.map (·.2))
    (console : (c.pump (clock 0)).console = ⟨c.bench.after (script applied), []⟩)
    (ok : (c.pump (clock 0)).result = .ok count) : c.Drained clock 0 where
  failed i less := absurd less (Nat.not_lt_zero i)
  ok := ⟨count, ok⟩
  applied := ⟨applied, queue.symm, fun a member => ⟨0, Nat.le_refl 0, times a member⟩, console⟩

/-- A pump that fails, and the pumps after it. -/
theorem Drained.later {c : Console M} {clock : Nat → Nat} {applied : List (Nat × Command)}
    {e : BenchError} {n : Nat} (times : ∀ a ∈ applied, a.1 = clock 0)
    (queue : c.queue = applied.map (·.2) ++ (c.pump (clock 0)).console.queue)
    (bench : (c.pump (clock 0)).console.bench = c.bench.after (script applied))
    (error : (c.pump (clock 0)).result = .error e)
    (rest : (c.pump (clock 0)).console.Drained (fun i => clock (i + 1)) n) :
    c.Drained clock (n + 1) where
  failed i less := by
    cases i with
    | zero => exact ⟨e, error⟩
    | succ i => exact rest.failed i (Nat.lt_of_succ_lt_succ less)
  ok := rest.ok
  applied := by
    obtain ⟨timed, commands, times', console⟩ := rest.applied
    refine ⟨applied ++ timed, ?_, fun a member => ?_, ?_⟩
    · rw [List.map_append, commands, queue]
    · obtain first | second := List.mem_append.1 member
      · exact ⟨0, Nat.zero_le _, times a first⟩
      · obtain ⟨i, le, time⟩ := times' a second
        exact ⟨i + 1, Nat.succ_le_succ le, time⟩
    · rw [script_append, Workbench.after_append, ← bench]
      exact console

/-- Each pump that fails uses up a command, so no more of them fail than commands are queued. -/
theorem pumped_until_ok (c : Console M) (clock : Nat → Nat) :
    ∃ n ≤ c.queue.length, c.Drained clock n := by
  generalize length : c.queue.length = l
  induction l using Nat.strongRecOn generalizing c clock with
  | ind l ih =>
    obtain ⟨applied, times, queue, bench, returns⟩ := c.pump_cases (clock 0)
    generalize result : (c.pump (clock 0)).result = r at returns
    generalize left : (c.pump (clock 0)).console.queue = q at returns
    cases returns with
    | emptied applied ok =>
      rw [left, List.append_nil] at queue
      refine ⟨0, Nat.zero_le l, .now times queue ?_ result⟩
      rw [← bench, ← left]
    | failed before now command e left ok error =>
      have shorter : (c.pump (clock 0)).console.queue.length < l := by
        rw [← length, queue, List.length_append]
        simp
      obtain ⟨n, le, rest⟩ := ih _ shorter _ (fun i => clock (i + 1)) rfl
      exact ⟨n + 1, Nat.succ_le_of_lt (Nat.lt_of_le_of_lt le shorter),
        .later times queue bench result rest⟩

end Console

/-! ## Every exchange -/

namespace Exchange

variable {M : Type} [Machine M]

/-- The commands applied, each with its sender. -/
def delivered (x : Exchange M) : List (Nat × Command) := x.sent.take x.applied.length

/-- **The queue loses, repeats and reorders nothing.**  However the commands of any number of
senders and the turns of the pumps follow each other, the commands applied are the first of those
sent, each applied once and the others queued; those of one sender are applied in its order.  A
pump that returns a number has applied that many commands, none of which failed, and left none; a
pump that returns a failure has applied all commands up to the one that failed, and left the others.
Pumping until no command fails leaves what the commands, applied one by one, would have left. -/
theorem commands_applied_in_order (w : Workbench M) (events : List ConsoleEvent) :
    let x := (start { bench := w }).after events
    x.Orderly w ∧
      (x.delivered.map (·.2) = x.applied.map (·.2) ∧
        ∀ sender, x.delivered.filter (·.1 == sender) <+: x.sent.filter (·.1 == sender)) ∧
      (∀ now, x.taken = [] → ∃ turns applied, x.after (List.replicate turns (.turn now)) =
        { x with
          console := (x.console.pump now).console
          pumps := x.pumps ++
            [⟨applied, (x.console.pump now).result, (x.console.pump now).console.queue⟩] }) ∧
      ∀ clock, ∃ n ≤ x.console.queue.length, x.console.Drained clock n := by
  intro x
  have orderly : x.Orderly w := (orderly_start { bench := w }).after events
  refine ⟨orderly, ⟨?delivered, ?senders⟩, ?pump, x.console.pumped_until_ok⟩
  case delivered =>
    rw [delivered, List.map_take, orderly.sent, ← List.length_map (·.2), List.take_left]
  case senders => exact fun sender => (List.take_prefix _ _).filter _
  case pump =>
    intro now none
    have count := orderly.count
    rw [none, List.length_nil] at count
    obtain ⟨turns, applied, -, after⟩ := x.exists_turns now
    refine ⟨turns, applied, after.trans ?_⟩
    rw [none, count]
    rfl

end Exchange

end Trainer51
