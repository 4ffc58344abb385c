import Trainer51.Proofs.Chip.Nesting

/-!
# Which interrupt is taken

The search for an interrupt goes through the levels from the top, and within a level through the
sources in a fixed order.  Both lists are ordered, so what is found first is what comes first: of
all sources that may be served now the one with the highest level, and among those the one that is
asked first.

    level ∈ s.admitted ↔ the level is above every level in service           (mem_admitted_iff)
    what `find?` returns from an ordered list is the least of its kind            (find?_ordered)
    pending? r s = some (i, level) ↔ i leads all that may be served      (pending?_eq_some_iff)
-/

namespace Trainer51

/-! ## Ordered searches -/

/-- In a list with rising keys, what is found is what has the least key of all that fit. -/
theorem find?_ordered {α : Type} {key : α → Nat} {l : List α} (ordered : l.Pairwise (key · < key ·))
    {p : α → Bool} {a : α} :
    l.find? p = some a ↔ a ∈ l ∧ p a = true ∧ ∀ b ∈ l, p b = true → key a ≤ key b := by
  constructor
  · intro found
    obtain ⟨fits, before, after, rfl, earlier⟩ := List.find?_eq_some_iff_append.1 found
    refine ⟨by simp, fits, fun b mem hb => ?_⟩
    obtain first | rfl | later := by simpa using mem
    · have := earlier b first
      simp [hb] at this
    · exact Nat.le_refl _
    · have rising := (List.pairwise_cons.1 (List.pairwise_append.1 ordered).2.1).1
      exact Nat.le_of_lt (rising b later)
  · rintro ⟨mem, fits, least⟩
    obtain ⟨before, after, rfl⟩ := List.append_of_mem mem
    refine List.find?_eq_some_iff_append.2 ⟨fits, before, after, rfl, fun b first => ?_⟩
    have rising : key b < key a := (List.pairwise_append.1 ordered).2.2 b first a (by simp)
    cases hb : p b with
    | false => rfl
    | true =>
      have := least b (by simp [first]) hb
      omega

/-! ## Levels -/

/-- A service may begin at the levels above those of all services in progress. -/
theorem InService.mem_admitted_iff (s : InService) (level : Level) :
    level ∈ s.admitted ↔ ∀ l, s.get l = true → l.rank < level.rank := by
  constructor
  · intro mem l busy
    by_cases above : level.rank ≤ l.rank
    · rw [get_of_admitted mem l above] at busy
      cases busy
    · omega
  · intro above
    have low := above .low
    have high := above .high
    obtain ⟨low?, high?⟩ := s
    cases low? <;> cases high? <;> cases level <;> simp_all [admitted, get, Level.rank]

theorem Level.rank_injective {k l : Level} (h : k.rank = l.rank) : k = l := by
  cases k <;> cases l <;> simp_all [Level.rank]

namespace Interrupt

/-! ## Sources -/

/-- When a source is asked. -/
def turn : Interrupt → Nat
  | external0 => 0
  | timer0 => 1
  | external1 => 2
  | timer1 => 3
  | serial => 4

theorem mem_all (i : Interrupt) : i ∈ all := by
  cases i <;> decide

theorem all_ordered : all.Pairwise (turn · < turn ·) := by
  decide

/-- A source that may be served now: it is enabled and asks for it, and no service in progress is as
high as its level. -/
structure Eligible (i : Interrupt) (r : InterruptRegisters) (s : InService) : Prop where
  enabled : i.enabled r = true
  requested : i.requested r = true
  above : ∀ l, s.get l = true → l.rank < (i.level r).rank

/-- A source is served before another: its level is higher, or it is asked first at the same. -/
def Precedes (i : Interrupt) (r : InterruptRegisters) (j : Interrupt) : Prop :=
  (j.level r).rank < (i.level r).rank ∨ i.level r = j.level r ∧ i.turn ≤ j.turn

/-! ## The search at one level -/

/-- A source is enabled and asks for a service at a level. -/
def AsksAt (r : InterruptRegisters) (level : Level) (i : Interrupt) : Prop :=
  i.enabled r = true ∧ i.level r = level ∧ i.requested r = true

theorem Eligible.asksAt {i : Interrupt} {r : InterruptRegisters} {s : InService}
    (h : i.Eligible r s) : AsksAt r (i.level r) i :=
  ⟨h.enabled, rfl, h.requested⟩

theorem Eligible.admitted {i : Interrupt} {r : InterruptRegisters} {s : InService}
    (h : i.Eligible r s) : i.level r ∈ s.admitted :=
  (s.mem_admitted_iff _).2 h.above

theorem AsksAt.eligible {i : Interrupt} {r : InterruptRegisters} {s : InService} {level : Level}
    (h : AsksAt r level i) (admitted : level ∈ s.admitted) : i.Eligible r s := by
  obtain ⟨enabled, rfl, requested⟩ := h
  exact ⟨enabled, requested, (s.mem_admitted_iff _).1 admitted⟩

/-- The first source that asks for a service at a level. -/
def first? (r : InterruptRegisters) (level : Level) : Option Interrupt :=
  all.find? fun i => i.enabled r && i.level r == level && i.requested r

theorem first?_eq_some_iff (r : InterruptRegisters) (level : Level) (i : Interrupt) :
    first? r level = some i ↔
      AsksAt r level i ∧ ∀ j, AsksAt r level j → i.turn ≤ j.turn := by
  unfold first?
  rw [find?_ordered all_ordered]
  simp [mem_all, AsksAt, and_assoc]

theorem first?_eq_none_iff (r : InterruptRegisters) (level : Level) :
    first? r level = none ↔ ∀ j, ¬ AsksAt r level j := by
  unfold first?
  rw [List.find?_eq_none]
  simp [mem_all, AsksAt]

/-! ## The search through the levels -/

theorem pending?_eq (r : InterruptRegisters) (s : InService) :
    pending? r s =
      if r.ie.bit 7 then s.admitted.findSome? fun l => (first? r l).map (·, l) else none := rfl

theorem isSome_pending?_iff (r : InterruptRegisters) (s : InService) :
    (pending? r s).isSome = true ↔ r.ie.bit 7 = true ∧ ∃ i : Interrupt, i.Eligible r s := by
  rw [pending?_eq]
  cases r.ie.bit 7 with
  | false => simp
  | true =>
    simp only [if_true, List.findSome?_isSome_iff, Option.isSome_map, true_and]
    constructor
    · rintro ⟨level, admitted, found⟩
      obtain ⟨i, first⟩ := Option.isSome_iff_exists.1 found
      exact ⟨i, ((first?_eq_some_iff r level i).1 first).1.eligible admitted⟩
    · rintro ⟨i, eligible⟩
      refine ⟨i.level r, eligible.admitted, ?_⟩
      rw [Option.isSome_iff_ne_none]
      intro none
      exact (first?_eq_none_iff r _).1 none i eligible.asksAt

/-- The search stops at the highest level that has a source to serve. -/
theorem pending?_eq_first? (r : InterruptRegisters) (s : InService) (i : Interrupt)
    (level : Level) :
    pending? r s = some (i, level) ↔
      r.ie.bit 7 = true ∧ level ∈ s.admitted ∧ first? r level = some i ∧
        ∀ l ∈ s.admitted, level.rank < l.rank → first? r l = none := by
  rw [pending?_eq]
  obtain ⟨low, high⟩ := s
  cases r.ie.bit 7
  · simp
  · cases low <;> cases high <;> cases level <;> cases hi : first? r .high <;>
      cases lo : first? r .low <;> simp [InService.admitted, Level.rank, hi, lo]

theorem pending?_eq_some_iff (r : InterruptRegisters) (s : InService) (i : Interrupt)
    (level : Level) :
    pending? r s = some (i, level) ↔
      r.ie.bit 7 = true ∧ i.Eligible r s ∧ level = i.level r ∧
        ∀ j, j.Eligible r s → i.Precedes r j := by
  rw [pending?_eq_first?, first?_eq_some_iff]
  constructor
  · rintro ⟨on, admitted, ⟨asks, least⟩, above⟩
    refine ⟨on, asks.eligible admitted, asks.2.1.symm, fun j eligible => ?_⟩
    have same : i.level r = level := asks.2.1
    obtain lower | equal | higher := Nat.lt_trichotomy (j.level r).rank (i.level r).rank
    · exact .inl lower
    · have together : i.level r = j.level r := Level.rank_injective equal.symm
      refine .inr ⟨together, least j ?_⟩
      rw [← same, together]
      exact eligible.asksAt
    · rw [same] at higher
      have none := above (j.level r) eligible.admitted higher
      exact absurd eligible.asksAt ((first?_eq_none_iff r _).1 none j)
  · rintro ⟨on, eligible, rfl, leads⟩
    refine ⟨on, eligible.admitted, ⟨eligible.asksAt, fun j asks => ?_⟩, fun l admitted higher => ?_⟩
    · obtain lower | ⟨-, first⟩ := leads j (asks.eligible eligible.admitted)
      · rw [asks.2.1] at lower
        exact absurd lower (Nat.lt_irrefl _)
      · exact first
    · refine (first?_eq_none_iff r l).2 fun j asks => ?_
      have level : j.level r = l := asks.2.1
      obtain lower | ⟨same, -⟩ := leads j (asks.eligible admitted)
      · rw [level] at lower
        omega
      · rw [same, level] at higher
        exact absurd higher (Nat.lt_irrefl _)

end Interrupt

/-! ## What a chip takes -/

/-- **The interrupt that is pending leads all that may be served.**  Whatever the chip's registers
hold and whatever is in service, there is one exactly when interrupts are switched on and a source
is enabled, asks for a service, and has a level above all services in progress.  It is the one with
the highest level of these, and the first to be asked of those with this level. -/
theorem Chip.pending_leads {X P : Type} [RegisterBus P] (c : Chip X P) :
    let r := c.interruptRegisters
    let s := c.core.inService
    (c.pending?.isSome = true ↔ r.ie.bit 7 = true ∧ ∃ i : Interrupt, i.Eligible r s) ∧
      ∀ i level, c.pending? = some (i, level) ↔
        r.ie.bit 7 = true ∧ i.Eligible r s ∧ level = i.level r ∧
          ∀ j : Interrupt, j.Eligible r s → i.Precedes r j :=
  ⟨Interrupt.isSome_pending?_iff _ _, Interrupt.pending?_eq_some_iff _ _⟩

/-- Everything asks, a service is in progress at the low level, and timer 1 has the high one. -/
example : Interrupt.pending? ⟨0x9F, 0x08, 0xFF, 0x03⟩ { low := true } = some (.timer1, .high) := by
  decide

end Trainer51
