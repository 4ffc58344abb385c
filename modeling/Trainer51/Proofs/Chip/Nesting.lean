import Trainer51.Proofs.Chip.Flow

/-!
# Services are nested by level

A service begins when an interrupt is taken and ends when a return from an interrupt is executed.
Whatever a program does and whatever happens to its memories and registers between two steps, only
a higher level interrupts a service, and at each level the services begun and ended differ by the
one in progress.

    c.entry? = some (i, level) → level ∈ c.core.inService.admitted              (admitted_of_entry)
    Balanced events s is kept by entries, returns, steps and runs
                                              (Balanced.enter, .leave, .turn, .after)
-/

namespace Trainer51

/-! ## Levels -/

def Level.rank : Level → Nat
  | low => 0
  | high => 1

namespace InService

/-- The level of the service that a return from an interrupt ends. -/
def innermost? (s : InService) : Option Level :=
  if s.high then some .high else if s.low then some .low else none

theorem get_enter (s : InService) (level l : Level) :
    (s.enter level).get l = if level = l then true else s.get l := by
  cases level <;> cases l <;> rfl

theorem get_leave (s : InService) (l : Level) :
    s.leave.get l = if s.innermost? = some l then false else s.get l := by
  obtain ⟨low, high⟩ := s
  cases low <;> cases high <;> cases l <;> rfl

/-- There is no service to end at a level that has none. -/
theorem get_of_innermost {s : InService} {l : Level} (h : s.innermost? = some l) :
    s.get l = true := by
  obtain ⟨low, high⟩ := s
  cases low <;> cases high <;> cases h <;> rfl

/-- A level that may begin a service has none in progress at it or above it. -/
theorem get_of_admitted {s : InService} {level : Level} (h : level ∈ s.admitted) (l : Level)
    (hl : level.rank ≤ l.rank) : s.get l = false := by
  obtain ⟨low, high⟩ := s
  cases low <;> cases high <;> cases level <;> cases l <;> simp_all [admitted, get, Level.rank]

end InService

theorem Interrupt.admitted_of_pending {r : InterruptRegisters} {s : InService} {i : Interrupt}
    {level : Level} (h : pending? r s = some (i, level)) : level ∈ s.admitted := by
  unfold pending? at h
  split at h
  · obtain ⟨l, hl, hf⟩ := List.exists_of_findSome?_eq_some h
    obtain ⟨i', -, he⟩ := Option.map_eq_some_iff.1 hf
    cases he
    exact hl
  · cases h

/-! ## Events -/

/-- What happens to the services of a chip. -/
inductive ServiceEvent where
  /-- An interrupt was taken and its service began. -/
  | entered (level : Level)
  /-- A return from an interrupt was executed; it ended the innermost service, if there was one. -/
  | returned (ended : Option Level)
  deriving DecidableEq, Repr

namespace Chip

variable {X P : Type} [RegisterBus P]

/-- The service that the next step begins. -/
def entryEvents (c : Chip X P) : List ServiceEvent :=
  (c.entry?.map fun entry => .entered entry.2).toList

/-- The service that the next instruction ends. -/
def returnEvents (code : Word → Byte) (c : Chip X P) : List ServiceEvent :=
  if (Fetch.ofCode code c.core.pc).decode = .returnFromInterrupt then
    [.returned c.core.inService.innermost?]
  else []

theorem admitted_of_entry {c : Chip X P} {i : Interrupt} {level : Level}
    (h : c.entry? = some (i, level)) : level ∈ c.core.inService.admitted := by
  unfold entry? at h
  split at h
  · cases h
  · exact Interrupt.admitted_of_pending h

end Chip

/-! ## Runs -/

/-- A step of a run.  Program memory and everything of the chip but its services in progress may
have changed since the step before. -/
structure Turn (X P : Type) where
  code : Word → Byte
  change : Chip X P → Chip X P
  keeps : ∀ c, (change c).core.inService = c.core.inService

/-- A chip and what has happened to its services. -/
structure Chronicle (X P : Type) where
  chip : Chip X P
  events : List ServiceEvent

namespace Chronicle

variable {X P : Type}

/-- A chip that has just been switched on. -/
def start (external : X) (registers : P) : Chronicle X P := ⟨⟨{}, external, registers⟩, []⟩

variable [ExternalBus X] [RegisterBus P]

/-- One step, whether or not it fails. -/
def turn (h : Chronicle X P) (t : Turn X P) : Chronicle X P :=
  let c := t.change h.chip
  ⟨(c.step t.code).1, h.events ++ c.entryEvents ++ c.takeInterrupt.1.returnEvents t.code⟩

def after (h : Chronicle X P) (run : List (Turn X P)) : Chronicle X P := run.foldl turn h

end Chronicle

/-! ## The balance of entries and returns -/

/-- How many services have begun at a level. -/
def servicesBegun (events : List ServiceEvent) (level : Level) : Nat :=
  events.count (.entered level)

/-- How many services have ended at a level. -/
def servicesEnded (events : List ServiceEvent) (level : Level) : Nat :=
  events.count (.returned (some level))

/-- At each level as many services have ended as have begun, but for the one in progress. -/
def Balanced (events : List ServiceEvent) (s : InService) : Prop :=
  ∀ level, servicesBegun events level = servicesEnded events level + (s.get level).toNat

namespace Balanced

variable {events : List ServiceEvent} {s : InService}

theorem enter (h : Balanced events s) {level : Level} (hl : s.get level = false) :
    Balanced (events ++ [.entered level]) (s.enter level) := by
  intro l
  have := h l
  unfold servicesBegun servicesEnded at this ⊢
  rw [List.count_append, List.count_append, this, InService.get_enter]
  by_cases e : level = l
  · subst e
    simp [hl]
  · simp [e]

theorem leave (h : Balanced events s) :
    Balanced (events ++ [.returned s.innermost?]) s.leave := by
  intro l
  have := h l
  unfold servicesBegun servicesEnded at this ⊢
  rw [List.count_append, List.count_append, this, InService.get_leave]
  by_cases e : s.innermost? = some l
  · simp [e, InService.get_of_innermost e]
  · simp [e]

/-- No more than one service per level is in progress. -/
theorem nested_le_two (h : Balanced events s) :
    servicesBegun events .low + servicesBegun events .high ≤
      servicesEnded events .low + servicesEnded events .high + 2 := by
  have low := (s.get .low).toNat_le
  have high := (s.get .high).toNat_le
  have := h .low
  have := h .high
  omega

theorem start {X P : Type} (external : X) (registers : P) :
    Balanced (Chronicle.start external registers).events
      (Chronicle.start external registers).chip.core.inService := by
  intro level
  cases level <;> rfl

variable {X P : Type} [RegisterBus P]

theorem takeInterrupt {c : Chip X P} (h : Balanced events c.core.inService) :
    Balanced (events ++ c.entryEvents) c.takeInterrupt.1.core.inService := by
  have flow := congrArg Flow.inService c.flow_takeInterrupt
  unfold Chip.entryEvents
  cases he : c.entry? with
  | none =>
    rw [he] at flow
    rw [show c.takeInterrupt.1.core.inService = c.core.inService from flow]
    simpa using h
  | some entry =>
    obtain ⟨i, level⟩ := entry
    rw [he] at flow
    rw [show c.takeInterrupt.1.core.inService = c.core.inService.enter level from flow]
    exact h.enter (InService.get_of_admitted (Chip.admitted_of_entry he) level (Nat.le_refl _))

variable [ExternalBus X]

theorem executeNext {c : Chip X P} (h : Balanced events c.core.inService) (code : Word → Byte) :
    Balanced (events ++ c.returnEvents code) (c.executeNext code).1.core.inService := by
  unfold Chip.returnEvents
  by_cases reserved : (Fetch.ofCode code c.core.pc).decode = .reserved
  · rw [Chip.executeNext_of_reserved reserved, reserved]
    simpa using h
  · have flow := congrArg Flow.inService (Chip.flow_executeNext rfl reserved)
    rw [show (c.executeNext code).1.core.inService = c.serviceAfter _ from flow]
    unfold Chip.serviceAfter
    split
    · exact h.leave
    · rw [List.append_nil]
      exact h

theorem turn {h : Chronicle X P} (balanced : Balanced h.events h.chip.core.inService)
    (t : Turn X P) : Balanced (h.turn t).events (h.turn t).chip.core.inService := by
  rw [← t.keeps h.chip] at balanced
  exact balanced.takeInterrupt.executeNext t.code

theorem after {h : Chronicle X P} (balanced : Balanced h.events h.chip.core.inService)
    (run : List (Turn X P)) : Balanced (h.after run).events (h.after run).chip.core.inService := by
  induction run generalizing h with
  | nil => exact balanced
  | cons t run ih => exact ih (balanced.turn t)

end Balanced

/-! ## Nesting -/

/-- **Services are nested by level.**  After any run, and again when the next step has taken its
interrupt, each level has begun one service more than have ended there if one is in progress, and as
many otherwise, and at most two are nested.  A step takes an interrupt only while no service is in
progress at its level or above. -/
theorem services_nested_by_level {X P : Type} [ExternalBus X] [RegisterBus P] (external : X)
    (registers : P) (run : List (Turn X P)) (next : Turn X P) :
    let h := (Chronicle.start external registers).after run
    let ready := next.change h.chip
    let events := h.events ++ ready.entryEvents
    Balanced h.events h.chip.core.inService ∧
      Balanced events ready.takeInterrupt.1.core.inService ∧
      servicesBegun events .low + servicesBegun events .high ≤
        servicesEnded events .low + servicesEnded events .high + 2 ∧
      ∀ i level, ready.entry? = some (i, level) →
        ready.takeInterrupt.1.core.flow = ⟨i.vector, h.chip.core.inService.enter level⟩ ∧
          ∀ l, level.rank ≤ l.rank → h.chip.core.inService.get l = false := by
  intro h ready events
  have balanced : Balanced h.events h.chip.core.inService :=
    (Balanced.start external registers).after run
  have same : ready.core.inService = h.chip.core.inService := next.keeps h.chip
  have taken : Balanced events ready.takeInterrupt.1.core.inService := by
    rw [← same] at balanced
    exact balanced.takeInterrupt
  refine ⟨balanced, taken, taken.nested_le_two, ?_⟩
  intro i level entry
  rw [← same]
  constructor
  · rw [Chip.flow_takeInterrupt, entry]
    rfl
  · exact InService.get_of_admitted (Chip.admitted_of_entry entry)

end Trainer51
