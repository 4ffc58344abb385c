import Mathlib.Algebra.Ring.Nat
import Trainer51.Chip.Timers

/-!
# What the timers count

While timer 0 is not split the two timers have nothing to do with each other: each is a `LoneTimer`
that sees its own bits and its own pins.  A lone timer neither loses an event nor counts one twice,
however the events are spread over its ticks.

    value (c.advance mode n).1 = (value c + n) % size                         (advance_wraps)
    unit.view (t.tick i) = (unit.view t).tick (unit.inputs i)                 (view_tick)
    a tick raises the flags of the timers that overflow                 (control_tick_overflow)
    s.after inputs counts the sum of what s hears of the inputs               (after_eq)
    both timers after any ticks, as numbers                                   (ticks_count_events)
-/

namespace Trainer51

/-! ## One counter -/

namespace Counter

/-- The thirteen bits that count in the first mode. -/
def value13 (c : Counter) : Nat := 32 * c.high.toNat + c.low.toNat % 32

def value16 (c : Counter) : Nat := 256 * c.high.toNat + c.low.toNat

/-- Where a count from `high` on to 255 that starts over has got to after `reached` events from
zero. -/
def restarted (high reached : Nat) : Nat :=
  if reached < 256 then reached else high + (reached - 256) % (256 - high)

theorem restarted_self {high : Nat} (h : high < 256) (n : Nat) :
    restarted high (high + n) = high + n % (256 - high) := by
  unfold restarted
  split
  · next below => rw [Nat.mod_eq_of_lt (by omega)]
  · next above =>
    rw [Nat.mod_eq_sub_mod (show 256 - high ≤ n by omega),
      show high + n - 256 = n - (256 - high) by omega]

/-- The event after 255 starts the count over. -/
theorem restarted_full (high n : Nat) :
    restarted high (255 + (n + 1)) = high + n % (256 - high) := by
  unfold restarted
  rw [if_neg (by omega), show 255 + (n + 1) - 256 = n by omega]

/-! ### One event -/

theorem low5_lt : ∀ k, k < 256 → (UInt8.ofNat k &&& 0x1F).toNat = k % 32 ∧
    (UInt8.ofNat k &&& 0xE0).toNat = k - k % 32 := by
  decide +kernel

/-- The low five bits of a byte, and the byte without them. -/
theorem low5 (b : Byte) :
    (b &&& 0x1F).toNat = b.toNat % 32 ∧ (b &&& 0xE0).toNat = b.toNat - b.toNat % 32 := by
  have h := low5_lt b.toNat b.toNat_lt
  rwa [UInt8.ofNat_toNat] at h

theorem toNat_succ (b : Byte) : (b + 1).toNat = (b.toNat + 1) % 256 := UInt8.toNat_add b 1

theorem eq_255_iff (b : Byte) : b = 0xFF ↔ b.toNat = 255 := by
  rw [← UInt8.toNat_inj]
  rfl

theorem value13_lt (c : Counter) : c.value13 < 8192 := by
  have := c.high.toNat_lt
  unfold value13
  omega

theorem value16_lt (c : Counter) : c.value16 < 65536 := by
  have := c.high.toNat_lt
  have := c.low.toNat_lt
  unfold value16
  omega

theorem increment_bits13 (c : Counter) :
    (c.increment .bits13).1.value13 = (c.value13 + 1) % 8192 ∧
      (c.increment .bits13).2 = decide (8192 ≤ c.value13 + 1) ∧
      (c.increment .bits13).1.low.toNat / 32 = c.low.toNat / 32 := by
  have high := c.high.toNat_lt
  have low := c.low.toNat_lt
  have full : c.low &&& 0x1F = 0x1F ↔ c.low.toNat % 32 = 31 := by
    rw [← UInt8.toNat_inj, (low5 c.low).1]
    rfl
  have top : c.high = 0xFF ↔ c.high.toNat = 255 := eq_255_iff c.high
  unfold increment value13
  dsimp only
  split
  · next h =>
    rw [full] at h
    have cleared := (low5 c.low).2
    refine ⟨?_, ?_, ?_⟩
    · show 32 * (c.high + 1).toNat + (c.low &&& 0xE0).toNat % 32 = _
      rw [toNat_succ, cleared]
      omega
    · show decide (c.high = 0xFF) = _
      rw [decide_eq_decide, top]
      omega
    · show (c.low &&& 0xE0).toNat / 32 = _
      rw [cleared]
      omega
  · next h =>
    rw [full] at h
    refine ⟨?_, ?_, ?_⟩
    · show 32 * c.high.toNat + (c.low + 1).toNat % 32 = _
      rw [toNat_succ]
      omega
    · symm
      rw [decide_eq_false_iff_not]
      omega
    · show (c.low + 1).toNat / 32 = _
      rw [toNat_succ]
      omega

theorem increment_bits16 (c : Counter) :
    (c.increment .bits16).1.value16 = (c.value16 + 1) % 65536 ∧
      (c.increment .bits16).2 = decide (65536 ≤ c.value16 + 1) := by
  have high := c.high.toNat_lt
  have low := c.low.toNat_lt
  have top : c.high = 0xFF ↔ c.high.toNat = 255 := eq_255_iff c.high
  unfold increment value16
  dsimp only
  split
  · next h =>
    rw [eq_255_iff] at h
    constructor
    · show 256 * (c.high + 1).toNat + 0 = _
      rw [toNat_succ]
      omega
    · show decide (c.high = 0xFF) = _
      rw [decide_eq_decide, top]
      omega
  · next h =>
    rw [eq_255_iff] at h
    constructor
    · show 256 * c.high.toNat + (c.low + 1).toNat = _
      rw [toNat_succ]
      omega
    · symm
      rw [decide_eq_false_iff_not]
      omega

/-! ### Any number of events -/

/-- A counter that counts single events up to `size` and starts over counts any number so. -/
theorem advance_wraps {mode : CountMode} {value : Counter → Nat} {size : Nat}
    (bound : ∀ c, value c < size)
    (one : ∀ c, value (increment mode c).1 = (value c + 1) % size ∧
      (increment mode c).2 = decide (size ≤ value c + 1)) (n : Nat) (c : Counter) :
    value (c.advance mode n).1 = (value c + n) % size ∧
      (c.advance mode n).2 = decide (size ≤ value c + n) := by
  induction n generalizing c with
  | zero =>
    have below := bound c
    refine ⟨(Nat.mod_eq_of_lt below).symm, ?_⟩
    exact (decide_eq_false (Nat.not_le.2 below)).symm
  | succ n ih =>
    obtain ⟨value₁, first⟩ := one c
    obtain ⟨value₂, later⟩ := ih (increment mode c).1
    have below := bound c
    constructor
    · show value ((increment mode c).1.advance mode n).1 = _
      rw [value₂, value₁, Nat.mod_add_mod, Nat.add_assoc, Nat.add_comm 1 n]
    · show ((increment mode c).2 || ((increment mode c).1.advance mode n).2) = _
      rw [first, later, value₁, ← Bool.decide_or, decide_eq_decide]
      -- the first event is the only one that can overflow before the others start from zero
      by_cases full : value c + 1 = size
      · rw [full, Nat.mod_self]
        omega
      · rw [Nat.mod_eq_of_lt (by omega)]
        omega

theorem advance_bits13_high (n : Nat) (c : Counter) :
    (c.advance .bits13 n).1.low.toNat / 32 = c.low.toNat / 32 := by
  induction n generalizing c with
  | zero => rfl
  | succ n ih => exact (ih _).trans c.increment_bits13.2.2

theorem advance_reload (n : Nat) (c : Counter) :
    (c.advance .reload n).1.low.toNat = restarted c.high.toNat (c.low.toNat + n) ∧
      (c.advance .reload n).1.high = c.high ∧
      (c.advance .reload n).2 = decide (256 ≤ c.low.toNat + n) := by
  have high := c.high.toNat_lt
  induction n generalizing c with
  | zero =>
    have low : c.low.toNat + 0 < 256 := c.low.toNat_lt
    exact ⟨(if_pos low).symm, rfl, (decide_eq_false (Nat.not_le.2 low)).symm⟩
  | succ n ih =>
    have low := c.low.toNat_lt
    by_cases full : c.low = 0xFF
    · -- the counter starts over from its high byte and has the other events before it
      have step : c.increment .reload = (⟨c.high, c.high⟩, true) := if_pos full
      obtain ⟨position, kept, -⟩ := ih ⟨c.high, c.high⟩ high
      dsimp only at position
      rw [eq_255_iff] at full
      have advanced : c.advance .reload (n + 1) =
          (((⟨c.high, c.high⟩ : Counter).advance .reload n).1, true) := by
        rw [advance, step]
        rfl
      rw [advanced]
      refine ⟨?_, kept, (decide_eq_true (by omega)).symm⟩
      rw [position, restarted_self high, full, restarted_full]
    · have step : c.increment .reload = (⟨c.high, c.low + 1⟩, false) := if_neg full
      obtain ⟨position, kept, overflow⟩ := ih ⟨c.high, c.low + 1⟩ high
      rw [eq_255_iff] at full
      have next : (c.low + 1).toNat = c.low.toNat + 1 := by
        rw [toNat_succ]
        omega
      have advanced : c.advance .reload (n + 1) =
          (⟨c.high, c.low + 1⟩ : Counter).advance .reload n := by
        rw [advance, step]
        rfl
      rw [advanced]
      refine ⟨?_, kept, ?_⟩
      · rw [position, next, Nat.add_assoc, Nat.add_comm 1 n]
      · rw [overflow, next, Nat.add_assoc, Nat.add_comm 1 n]

theorem advance_split (n : Nat) (c : Counter) : c.advance .split n = (c, false) := by
  induction n with
  | zero => rfl
  | succ n ih =>
    rw [advance]
    show ((c.advance .split n).1, false || (c.advance .split n).2) = _
    rw [ih]
    rfl

/-- Events counted in two portions. -/
theorem advance_add (mode : CountMode) (m n : Nat) (c : Counter) :
    c.advance mode (m + n) =
      (((c.advance mode m).1.advance mode n).1,
        (c.advance mode m).2 || ((c.advance mode m).1.advance mode n).2) := by
  induction m generalizing c with
  | zero => simp [advance]
  | succ m ih =>
    rw [Nat.succ_add, advance, advance]
    simp only [ih, Bool.or_assoc]

/-- What `n` events make of a counter and its overflow flag. -/
def Counts (mode : CountMode) (n : Nat) (c c' : Counter) (flag flag' : Bool) : Prop :=
  match mode with
  | .bits13 =>
    c'.value13 = (c.value13 + n) % 8192 ∧ c'.low.toNat / 32 = c.low.toNat / 32 ∧
      flag' = (flag || decide (8192 ≤ c.value13 + n))
  | .bits16 =>
    c'.value16 = (c.value16 + n) % 65536 ∧ flag' = (flag || decide (65536 ≤ c.value16 + n))
  | .reload =>
    c'.low.toNat = restarted c.high.toNat (c.low.toNat + n) ∧ c'.high = c.high ∧
      flag' = (flag || decide (256 ≤ c.low.toNat + n))
  | .split => c' = c ∧ flag' = flag

theorem counts_advance (mode : CountMode) (n : Nat) (c : Counter) (flag : Bool) :
    Counts mode n c (c.advance mode n).1 flag (flag || (c.advance mode n).2) := by
  cases mode with
  | bits13 =>
    obtain ⟨value, overflow⟩ := advance_wraps value13_lt
      (fun c => ⟨c.increment_bits13.1, c.increment_bits13.2.1⟩) n c
    exact ⟨value, c.advance_bits13_high n, congrArg (flag || ·) overflow⟩
  | bits16 =>
    obtain ⟨value, overflow⟩ := advance_wraps value16_lt increment_bits16 n c
    exact ⟨value, congrArg (flag || ·) overflow⟩
  | reload =>
    obtain ⟨low, high, overflow⟩ := c.advance_reload n
    exact ⟨low, high, congrArg (flag || ·) overflow⟩
  | split =>
    rw [c.advance_split n]
    exact ⟨rfl, Bool.or_false flag⟩

end Counter

/-! ## A timer on its own -/

/-- A timer with its bits of the control and mode registers. -/
structure LoneTimer where
  counter : Counter
  mode : CountMode
  /-- It counts the edges on its pin and not the machine cycles. -/
  countsEdges : Bool
  /-- It stands still while its interrupt pin is low. -/
  gated : Bool
  run : Bool
  overflowed : Bool
  deriving DecidableEq

/-- What a timer sees of an instruction. -/
structure LoneInputs where
  cycles : Nat
  edges : Nat
  /-- The level of its interrupt pin. -/
  level : Bool
  deriving DecidableEq

namespace LoneTimer

/-- The events of a tick that it has to count: while it runs and its gate is open, the machine
cycles or the edges. -/
def heard (s : LoneTimer) (i : LoneInputs) : Nat :=
  if s.run && (!s.gated || i.level) then (if s.countsEdges then i.edges else i.cycles) else 0

def tick (s : LoneTimer) (i : LoneInputs) : LoneTimer :=
  let (counter, overflow) := s.counter.advance s.mode (s.heard i)
  { s with counter, overflowed := s.overflowed || overflow }

def after (s : LoneTimer) (inputs : List LoneInputs) : LoneTimer := inputs.foldl tick s

/-- Counting changes neither what a timer hears nor how it counts. -/
theorem after_eq (s : LoneTimer) (inputs : List LoneInputs) :
    s.after inputs =
      { s with
        counter := (s.counter.advance s.mode (inputs.map s.heard).sum).1
        overflowed :=
          s.overflowed || (s.counter.advance s.mode (inputs.map s.heard).sum).2 } := by
  induction inputs generalizing s with
  | nil =>
    show s = { s with counter := s.counter, overflowed := s.overflowed || false }
    rw [Bool.or_false]
  | cons i inputs ih =>
    have same : (s.tick i).heard = s.heard := rfl
    show (s.tick i).after inputs = _
    rw [ih, same, List.map_cons, List.sum_cons, Counter.advance_add, ← Bool.or_assoc]
    rfl

end LoneTimer

/-! ## The two timers -/

inductive TimerUnit where
  | timer0 | timer1
  deriving DecidableEq, Repr

namespace TimerUnit

/-- The bit of TCON that lets it run. -/
def run : TimerUnit → Nat
  | timer0 => Tcon.tr0
  | timer1 => Tcon.tr1

/-- The bit of TCON that it sets when it overflows. -/
def overflow : TimerUnit → Nat
  | timer0 => Tcon.tf0
  | timer1 => Tcon.tf1

/-- The bit of TMOD that makes it a counter of edges. -/
def edgeBit : TimerUnit → Nat
  | timer0 => 2
  | timer1 => 6

/-- The bit of TMOD that gates it. -/
def gate : TimerUnit → Nat
  | timer0 => 3
  | timer1 => 7

def counter : TimerUnit → Timers → Counter
  | timer0, t => t.counter0
  | timer1, t => t.counter1

def mode : TimerUnit → Timers → CountMode
  | timer0, t => t.mode0
  | timer1, t => t.mode1

/-- A timer with what belongs to it. -/
def view (unit : TimerUnit) (t : Timers) : LoneTimer where
  counter := unit.counter t
  mode := unit.mode t
  countsEdges := t.tmod.bit unit.edgeBit
  gated := t.tmod.bit unit.gate
  run := t.control unit.run
  overflowed := t.control unit.overflow

/-- What it sees of a tick. -/
def inputs : TimerUnit → TimerInputs → LoneInputs
  | timer0, i => ⟨i.cycles, i.edges0, i.int0⟩
  | timer1, i => ⟨i.cycles, i.edges1, i.int1⟩

/-- The events of a tick that it has to count. -/
def heard (unit : TimerUnit) (t : Timers) (i : TimerInputs) : Nat :=
  (unit.view t).heard (unit.inputs i)

/-- Whether a timer overflows in a tick.  Of a split timer 0 the low byte overflows for timer 0, and
the high byte for timer 1. -/
def overflows (unit : TimerUnit) (t : Timers) (i : TimerInputs) : Bool :=
  if t.mode0 = .split then
    match unit with
    | timer0 => t.running0 i && decide (255 < t.counter0.low.toNat + t.events0 i)
    | timer1 => t.control Tcon.tr1 && decide (255 < t.counter0.high.toNat + i.cycles)
  else ((unit.counter t).advance (unit.mode t) (unit.heard t i)).2

end TimerUnit

namespace Timers

open TimerUnit

theorem tmod_raise (t : Timers) (n : Nat) (on : Bool) : (t.raise n on).tmod = t.tmod := by
  unfold raise
  split <;> rfl

theorem control_raise_self (t : Timers) (n : Nat) (on : Bool) :
    (t.raise n on).control n = (t.control n || on) := by
  unfold raise
  cases on with
  | false => exact (Bool.or_false _).symm
  | true =>
    rw [if_pos rfl, control_setControl, if_pos rfl]
    exact (Bool.or_true _).symm

theorem counter_raise (t : Timers) (unit : TimerUnit) (n : Nat) (on : Bool) :
    unit.counter (t.raise n on) = unit.counter t := by
  unfold raise
  cases unit <;> split <;> rfl

theorem mode_raise (t : Timers) (unit : TimerUnit) (n : Nat) (on : Bool) :
    unit.mode (t.raise n on) = unit.mode t := by
  unfold raise
  cases unit <;> split <;> rfl

theorem view_raise_of_ne (t : Timers) (unit : TimerUnit) {n : Nat} (on : Bool)
    (run : unit.run % 8 ≠ n % 8) (overflow : unit.overflow % 8 ≠ n % 8) :
    unit.view (t.raise n on) = unit.view t := by
  unfold view
  rw [counter_raise, mode_raise, tmod_raise, control_raise_of_ne _ run,
    control_raise_of_ne _ overflow]

/-- The overflow flag of a timer tells of overflows before and now. -/
theorem view_raise_self (t : Timers) (unit : TimerUnit) (on : Bool) :
    unit.view (t.raise unit.overflow on) =
      { unit.view t with overflowed := (unit.view t).overflowed || on } := by
  have run : unit.run % 8 ≠ unit.overflow % 8 := by cases unit <;> decide
  unfold view
  rw [counter_raise, mode_raise, tmod_raise, control_raise_of_ne _ run, control_raise_self]

/-! ### One tick -/

theorem view_tick0 (t : Timers) (i : TimerInputs) :
    timer0.view (t.tick0 i) = (timer0.view t).tick (timer0.inputs i) := by
  have heard : (timer0.view t).heard (timer0.inputs i) =
      if t.running0 i then t.events0 i else 0 := rfl
  unfold tick0 LoneTimer.tick
  rw [heard]
  split
  · let counted := { t with counter0 := (t.counter0.advance t.mode0 (t.events0 i)).1 }
    exact counted.view_raise_self timer0 _
  · show timer0.view t = { timer0.view t with overflowed := (timer0.view t).overflowed || false }
    rw [Bool.or_false]

theorem view_tick1 (t : Timers) (i : TimerInputs) :
    timer1.view (t.tick1 i) = (timer1.view t).tick (timer1.inputs i) := by
  have heard : (timer1.view t).heard (timer1.inputs i) =
      if t.running1 i then t.events1 i else 0 := rfl
  unfold tick1 LoneTimer.tick
  rw [heard]
  split
  · let counted := { t with counter1 := (t.counter1.advance t.mode1 (t.events1 i)).1 }
    exact counted.view_raise_self timer1 _
  · show timer1.view t = { timer1.view t with overflowed := (timer1.view t).overflowed || false }
    rw [Bool.or_false]

/-- A tick of one timer is nothing to the other. -/
theorem view1_tick0 (t : Timers) (i : TimerInputs) : timer1.view (t.tick0 i) = timer1.view t := by
  unfold tick0
  split
  · exact view_raise_of_ne _ timer1 _ (by decide) (by decide)
  · rfl

theorem view0_tick1 (t : Timers) (i : TimerInputs) : timer0.view (t.tick1 i) = timer0.view t := by
  unfold tick1
  split
  · exact view_raise_of_ne _ timer0 _ (by decide) (by decide)
  · rfl

/-- While timer 0 is not split each timer ticks on its own. -/
theorem view_tick {t : Timers} (h : t.mode0 ≠ .split) (unit : TimerUnit) (i : TimerInputs) :
    unit.view (t.tick i) = (unit.view t).tick (unit.inputs i) := by
  unfold tick
  rw [if_neg h]
  cases unit with
  | timer0 => rw [view0_tick1, view_tick0]
  | timer1 => rw [view_tick1, view1_tick0]

theorem tmod_tick {t : Timers} (h : t.mode0 ≠ .split) (i : TimerInputs) :
    (t.tick i).tmod = t.tmod := by
  have tick0 : (t.tick0 i).tmod = t.tmod := by
    unfold Timers.tick0
    split
    · exact tmod_raise _ _ _
    · rfl
  have tick1 : ((t.tick0 i).tick1 i).tmod = (t.tick0 i).tmod := by
    unfold Timers.tick1
    split
    · exact tmod_raise _ _ _
    · rfl
  unfold tick
  rw [if_neg h, tick1, tick0]

/-- The two counters of a split timer raise one flag each. -/
theorem tickSplit_eq (t : Timers) (i : TimerInputs) (split : t.mode0 = .split) :
    ∃ counter0 counter1, t.tickSplit i =
      ({ t with counter0, counter1 }.raise Tcon.tf0 (timer0.overflows t i)).raise Tcon.tf1
        (timer1.overflows t i) := by
  unfold tickSplit overflows
  simp only [if_pos split]
  cases t.running0 i <;> cases t.control Tcon.tr1 <;> exact ⟨_, _, rfl⟩

/-- A tick raises the flags of the timers that overflow. -/
theorem control_tick_overflow (t : Timers) (i : TimerInputs) (unit : TimerUnit) :
    (t.tick i).control unit.overflow = (t.control unit.overflow || unit.overflows t i) := by
  by_cases split : t.mode0 = .split
  · obtain ⟨counter0, counter1, counted⟩ := t.tickSplit_eq i split
    unfold tick
    rw [if_pos split, counted]
    cases unit with
    | timer0 =>
      refine (control_raise_of_ne _ (by decide) _).trans ?_
      exact control_raise_self _ _ _
    | timer1 =>
      refine (control_raise_self _ _ _).trans ?_
      exact congrArg (· || _) (control_raise_of_ne _ (by decide) _)
  · unfold overflows
    rw [if_neg split]
    exact congrArg LoneTimer.overflowed (view_tick split unit i)

/-- Of the control bits a tick writes only the overflow flags. -/
theorem control_tick (t : Timers) (i : TimerInputs) {n : Nat}
    (others : ∀ unit : TimerUnit, n % 8 ≠ unit.overflow) : (t.tick i).control n = t.control n := by
  have tick0 : (t.tick0 i).control n = t.control n := by
    unfold Timers.tick0
    split
    · exact control_raise_of_ne _ (others timer0) _
    · rfl
  have tick1 : ((t.tick0 i).tick1 i).control n = (t.tick0 i).control n := by
    unfold Timers.tick1
    split
    · exact control_raise_of_ne _ (others timer1) _
    · rfl
  unfold tick
  split
  · next split =>
    obtain ⟨counter0, counter1, counted⟩ := t.tickSplit_eq i split
    rw [counted, control_raise_of_ne _ (others timer1), control_raise_of_ne _ (others timer0)]
    rfl
  · rw [tick1, tick0]

/-! ### Any number of ticks -/

/-- The timers after a number of ticks. -/
def after (t : Timers) (ticks : List TimerInputs) : Timers := ticks.foldl tick t

theorem mode0_tick {t : Timers} (h : t.mode0 ≠ .split) (i : TimerInputs) :
    (t.tick i).mode0 = t.mode0 := by
  unfold mode0
  rw [tmod_tick h]

theorem tmod_after {t : Timers} (h : t.mode0 ≠ .split) (ticks : List TimerInputs) :
    (t.after ticks).tmod = t.tmod := by
  induction ticks generalizing t with
  | nil => rfl
  | cons i ticks ih => exact (ih (mode0_tick h i ▸ h)).trans (tmod_tick h i)

theorem control_after (t : Timers) (ticks : List TimerInputs) {n : Nat}
    (others : ∀ unit : TimerUnit, n % 8 ≠ unit.overflow) :
    (t.after ticks).control n = t.control n := by
  induction ticks generalizing t with
  | nil => rfl
  | cons i ticks ih => exact (ih (t.tick i)).trans (t.control_tick i others)

theorem view_after {t : Timers} (h : t.mode0 ≠ .split) (unit : TimerUnit)
    (ticks : List TimerInputs) :
    unit.view (t.after ticks) = (unit.view t).after (ticks.map unit.inputs) := by
  induction ticks generalizing t with
  | nil => rfl
  | cons i ticks ih =>
    show unit.view ((t.tick i).after ticks) = _
    rw [ih (mode0_tick h i ▸ h), view_tick h]
    rfl

/-- **The timers count every event once**, while timer 0 is not split.  After any ticks each has
counted just what it heard, as its mode says, and has flagged an overflow if there was one; neither
the mode register nor any other control bit has changed.  What becomes of one timer follows from its
own registers, bits and pins. -/
theorem ticks_count_events (t : Timers) (h : t.mode0 ≠ .split) (ticks : List TimerInputs) :
    let t' := t.after ticks
    (∀ unit : TimerUnit,
      Counter.Counts (unit.mode t) (ticks.map (unit.heard t)).sum (unit.counter t)
        (unit.counter t') (t.control unit.overflow) (t'.control unit.overflow)) ∧
      t'.tmod = t.tmod ∧
      (∀ n, (∀ unit : TimerUnit, n % 8 ≠ unit.overflow) → t'.control n = t.control n) ∧
      ∀ (unit : TimerUnit) (u : Timers) (others : List TimerInputs), u.mode0 ≠ .split →
        unit.view u = unit.view t → others.map unit.inputs = ticks.map unit.inputs →
          unit.view (u.after others) = unit.view t' := by
  intro t'
  refine ⟨?_, tmod_after h ticks, fun n others => t.control_after ticks others, ?_⟩
  · intro unit
    have lone := (view_after h unit ticks).trans (LoneTimer.after_eq _ _)
    rw [List.map_map] at lone
    have counter := congrArg LoneTimer.counter lone
    have overflowed := congrArg LoneTimer.overflowed lone
    show Counter.Counts _ _ _ (unit.view t').counter _ (unit.view t').overflowed
    rw [counter, overflowed]
    exact Counter.counts_advance _ _ _ _
  · intro unit u others hu own seen
    rw [view_after hu, view_after h, own, seen]

/-- Timer 0 counts edges in thirteen bits while its gate is open, timer 1 starts over within an
instruction. -/
theorem ticks_count_events_midway :
    let t : Timers := ⟨0x50, 0x2C, ⟨0xFF, 0xFF⟩, ⟨0xFD, 0xFE⟩⟩
    let ticks : List TimerInputs := [⟨4, 1, 0, true, true⟩, ⟨3, 1, 0, false, true⟩]
    let t' := t.after ticks
    t.mode0 ≠ .split ∧
      t'.counter0.value13 = 0 ∧ t'.counter0.low.toNat / 32 = 7 ∧ t'.control Tcon.tf0 = true ∧
      t'.counter1.low.toNat = 0xFF ∧ t'.counter1.high = 0xFD ∧ t'.control Tcon.tf1 = true ∧
      t'.control Tcon.tr0 = true := by
  intro t ticks t'
  have whole : t.mode0 ≠ .split := by decide
  obtain ⟨counts, -, controls, -⟩ := ticks_count_events t whole ticks
  have mode0 : timer0.mode t = .bits13 := by decide
  have mode1 : timer1.mode t = .reload := by decide
  have heard0 : (ticks.map (timer0.heard t)).sum = 1 := by decide
  have heard1 : (ticks.map (timer1.heard t)).sum = 7 := by decide
  have edges := counts timer0
  have cycles := counts timer1
  rw [mode0, heard0] at edges
  rw [mode1, heard1] at cycles
  obtain ⟨value, top, flag0⟩ := edges
  obtain ⟨low, high, flag1⟩ := cycles
  have runs := controls Tcon.tr0 fun unit => by cases unit <;> decide
  exact ⟨whole, value.trans (by decide), top.trans (by decide), flag0.trans (by decide),
    low.trans (by decide), high, flag1.trans (by decide), runs.trans (by decide)⟩

end Timers

end Trainer51
