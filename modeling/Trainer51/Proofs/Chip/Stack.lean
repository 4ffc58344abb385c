import Trainer51.Proofs.Chip.Footprint

/-!
# Return addresses

The stack grows upwards in the 256 bytes of internal RAM, and behind FFh it goes on at 00h.  As long
as its words fit into the RAM, pushing one leaves those below it alone.  So calls and interrupts are
returned from in the opposite order, wherever the stack begins, if what runs in between leaves the
stack pointer and the cells of the words on the stack as they were.

    Stacked base ws c → ws.length < 128 → Stacked base (w :: ws) (c.pushWord w)
                                                                              (Stacked.pushWord)
    Stacked base (w :: ws) c ↔ c.popWord.1 = w ∧ Stacked base ws c.popWord.2    (Stacked.cons_iff)
    whatever leaves the stack pointer and its cells alone keeps Stacked base ws    (Stacked.congr)
-/

namespace Trainer51

/-! ## Cells -/

/-- The cells of `n` words above a stack pointer; behind FFh comes 00h. -/
def stackCells (base : Byte) (n : Nat) : List Byte :=
  (List.range (2 * n)).map fun k => base + UInt8.ofNat (k + 1)

theorem mem_stackCells {base a : Byte} {n : Nat} :
    a ∈ stackCells base n ↔ ∃ k < 2 * n, a = base + UInt8.ofNat (k + 1) := by
  simp [stackCells, eq_comm]

theorem stackCells_subset_succ (base : Byte) (n : Nat) :
    stackCells base n ⊆ stackCells base (n + 1) := by
  intro a ha
  obtain ⟨k, lt, rfl⟩ := mem_stackCells.1 ha
  exact mem_stackCells.2 ⟨k, by omega, rfl⟩

/-- Words above a word are above the one below it. -/
theorem stackCells_add_two_subset (base : Byte) (n : Nat) :
    stackCells (base + 1 + 1) n ⊆ stackCells base (n + 1) := by
  intro a ha
  obtain ⟨k, lt, rfl⟩ := mem_stackCells.1 ha
  refine mem_stackCells.2 ⟨k + 2, by omega, ?_⟩
  simp only [UInt8.add_assoc, UInt8.ofNat_add]
  grind

/-- A cell is not again one of those above it before the stack has gone round. -/
theorem not_mem_stackCells {base : Byte} {m n : Nat} (above : 2 * n ≤ m) (lt : m < 256) :
    base + UInt8.ofNat (m + 1) ∉ stackCells base n := by
  intro h
  obtain ⟨k, below, same⟩ := mem_stackCells.1 h
  have offsets := congrArg UInt8.toNat ((UInt8.add_right_inj base).1 same)
  simp only [UInt8.toNat_ofNat'] at offsets
  omega

/-! ## Pushing and popping -/

namespace Core

/-- Push words, the first of them first. -/
def pushWords (c : Core) (ws : List Word) : Core := ws.foldl pushWord c

/-- Pop words, the last one pushed first. -/
def popWords : Nat → Core → List Word × Core
  | 0, c => ([], c)
  | n + 1, c =>
    let (w, c) := c.popWord
    let (ws, c) := c.popWords n
    (w :: ws, c)

theorem core_popWords (n : Nat) (c : Core) :
    (c.popWords n).2 = { c with sp := c.sp - UInt8.ofNat (2 * n) } := by
  induction n generalizing c with
  | zero => exact congrArg (fun sp => { c with sp }) (UInt8.sub_zero c.sp).symm
  | succ n ih =>
    have sp : c.sp - 1 - 1 - UInt8.ofNat (2 * n) = c.sp - UInt8.ofNat (2 * (n + 1)) := by
      rw [Nat.mul_add, UInt8.ofNat_add]
      grind
    calc (c.popWords (n + 1)).2 = (c.popWord.2.popWords n).2 := rfl
      _ = { c with sp := c.sp - 1 - 1 - UInt8.ofNat (2 * n) } := ih _
      _ = _ := congrArg (fun sp => { c with sp }) sp

theorem readRam_push (c : Core) (v a : Byte) :
    (c.push v).readRam a = if c.sp + 1 = a then v else c.readRam a :=
  Store256.read_write _ _ _ _

/-- Pushing a word writes two cells. -/
theorem readRam_pushWord (c : Core) (w : Word) (a : Byte) :
    (c.pushWord w).readRam a =
      if c.sp + 1 + 1 = a then w.hi else if c.sp + 1 = a then w.lo else c.readRam a := by
  calc (c.pushWord w).readRam a
      = if c.sp + 1 + 1 = a then w.hi else (c.push w.lo).readRam a := readRam_push _ _ _
    _ = _ := by rw [readRam_push]

theorem popWord_eq (c : Core) : c.popWord =
    (Word.ofBytes (c.readRam c.sp) (c.readRam (c.sp - 1)), { c with sp := c.sp - 1 - 1 }) := rfl

/-- A word is popped as it was pushed. -/
theorem popWord_pushWord (c : Core) (w : Word) :
    (c.pushWord w).popWord = (w, { c with ram := (c.pushWord w).ram }) := by
  have sp : (c.pushWord w).sp = c.sp + 1 + 1 := rfl
  have below : c.sp + 1 + 1 - 1 = c.sp + 1 := UInt8.add_sub_cancel _ _
  have high : (c.pushWord w).readRam (c.sp + 1 + 1) = w.hi := by
    rw [readRam_pushWord, if_pos rfl]
  have low : (c.pushWord w).readRam (c.sp + 1) = w.lo := by
    rw [readRam_pushWord, if_neg (by grind), if_pos rfl]
  rw [popWord_eq, sp, below, high, low, Word.ofBytes_hi_lo, UInt8.add_sub_cancel]
  rfl

/-- Pushing writes nothing but the RAM and the stack pointer. -/
theorem pushWords_eq (c : Core) (ws : List Word) :
    ∃ sp, c.pushWords ws = { c with ram := (c.pushWords ws).ram, sp } := by
  induction ws generalizing c with
  | nil => exact ⟨c.sp, rfl⟩
  | cons w ws ih => exact ih (c.pushWord w)

/-- Pushing words writes the cells that they take up. -/
theorem readRam_pushWords {c : Core} {ws : List Word} {a : Byte}
    (h : a ∉ stackCells c.sp ws.length) : (c.pushWords ws).readRam a = c.readRam a := by
  induction ws generalizing c with
  | nil => rfl
  | cons w ws ih =>
    have low : c.sp + 1 ≠ a := by
      rintro rfl
      exact h (mem_stackCells.2 ⟨0, by simp, rfl⟩)
    have high : c.sp + 1 + 1 ≠ a := by
      rintro rfl
      exact h (mem_stackCells.2 ⟨1, by simp; omega, UInt8.add_assoc _ _ _⟩)
    have others : a ∉ stackCells (c.pushWord w).sp ws.length :=
      fun ha => h (stackCells_add_two_subset c.sp ws.length ha)
    calc (c.pushWords (w :: ws)).readRam a
        = (c.pushWord w).readRam a := ih others
      _ = c.readRam a := by rw [readRam_pushWord, if_neg high, if_neg low]

end Core

/-! ## Words on the stack -/

/-- Words are on the stack above `base`, the innermost first. -/
structure Stacked (base : Byte) (ws : List Word) (c : Core) : Prop where
  sp : c.sp = base + UInt8.ofNat (2 * ws.length)
  words : (c.popWords ws.length).1 = ws

namespace Stacked

variable {base : Byte} {w : Word} {ws : List Word} {c c' : Core}

theorem nil (h : c.sp = base) : Stacked base [] c := ⟨h.trans (UInt8.add_zero base).symm, rfl⟩

theorem cons_iff :
    Stacked base (w :: ws) c ↔ c.popWord.1 = w ∧ Stacked base ws c.popWord.2 := by
  have sp : c.popWord.2.sp = base + UInt8.ofNat (2 * ws.length) ↔
      c.sp = base + UInt8.ofNat (2 * (w :: ws).length) := by
    rw [List.length_cons, Nat.mul_add, UInt8.ofNat_add]
    show c.sp - 1 - 1 = _ ↔ _
    grind
  constructor
  · rintro ⟨h, words⟩
    obtain ⟨first, rest⟩ := List.cons.inj words
    exact ⟨first, sp.2 h, rest⟩
  · rintro ⟨first, h, rest⟩
    exact ⟨sp.1 h, congrArg₂ List.cons first rest⟩

/-- The words stay on the stack while the stack pointer and their cells are left alone. -/
theorem congr (h : Stacked base ws c) (sp : c'.sp = c.sp)
    (cells : ∀ a ∈ stackCells base ws.length, c'.readRam a = c.readRam a) :
    Stacked base ws c' := by
  induction ws generalizing c c' with
  | nil => exact nil (sp.trans (h.sp.trans (UInt8.add_zero base)))
  | cons w ws ih =>
    have top : c.sp = base + UInt8.ofNat (2 * ws.length + 1 + 1) := h.sp
    have below : c.sp - 1 = base + UInt8.ofNat (2 * ws.length + 1) := by
      rw [top, UInt8.ofNat_add, ← UInt8.add_assoc]
      exact UInt8.add_sub_cancel _ _
    have high : c'.readRam c.sp = c.readRam c.sp :=
      cells _ (mem_stackCells.2 ⟨2 * ws.length + 1, by rw [List.length_cons]; omega, top⟩)
    have low : c'.readRam (c.sp - 1) = c.readRam (c.sp - 1) :=
      cells _ (mem_stackCells.2 ⟨2 * ws.length, by rw [List.length_cons]; omega, below⟩)
    obtain ⟨first, rest⟩ := cons_iff.1 h
    refine cons_iff.2 ⟨?_, ih rest ?_ fun a ha => cells a (stackCells_subset_succ _ _ ha)⟩
    · rw [← first, Core.popWord_eq, Core.popWord_eq, sp, high, low]
    · exact congrArg (· - 1 - 1) sp

/-- A word goes above the others while the RAM has room for it. -/
theorem pushWord (h : Stacked base ws c) (room : ws.length < 128) (w : Word) :
    Stacked base (w :: ws) (c.pushWord w) := by
  have low : c.sp + 1 = base + UInt8.ofNat (2 * ws.length + 1) := by
    rw [h.sp, UInt8.ofNat_add, UInt8.add_assoc]
    rfl
  have high : c.sp + 1 + 1 = base + UInt8.ofNat (2 * ws.length + 1 + 1) := by
    rw [low, UInt8.ofNat_add (2 * ws.length + 1), UInt8.add_assoc]
    rfl
  rw [cons_iff, Core.popWord_pushWord]
  refine ⟨rfl, h.congr rfl fun a ha => ?_⟩
  have notLow : c.sp + 1 ≠ a := by
    rintro rfl
    exact not_mem_stackCells (Nat.le_refl _) (by omega) (low ▸ ha)
  have notHigh : c.sp + 1 + 1 ≠ a := by
    rintro rfl
    exact not_mem_stackCells (Nat.le_succ _) (by omega) (high ▸ ha)
  show (c.pushWord w).readRam a = c.readRam a
  rw [Core.readRam_pushWord, if_neg notHigh, if_neg notLow]

theorem pushWords (h : Stacked base ws c) (pushed : List Word)
    (room : ws.length + pushed.length ≤ 128) :
    Stacked base (pushed.reverse ++ ws) (c.pushWords pushed) := by
  induction pushed generalizing c ws with
  | nil => exact h
  | cons w pushed ih =>
    rw [List.length_cons] at room
    rw [List.reverse_cons, List.append_assoc, List.singleton_append]
    exact ih (h.pushWord (by omega) w) (by rw [List.length_cons]; omega)

/-- Popping takes all of the words and leaves the stack pointer below them. -/
theorem popWords (h : Stacked base ws c) :
    c.popWords ws.length = (ws, { c with sp := base }) := by
  have sp : c.sp - UInt8.ofNat (2 * ws.length) = base := by
    rw [h.sp]
    exact UInt8.add_sub_cancel _ _
  have core := c.core_popWords ws.length
  rw [sp] at core
  exact Prod.ext h.words core

end Stacked

/-! ## Entries and returns -/

/-- Returns to an address that an entry has pushed. -/
def Instruction.Returns (i : Instruction) : Prop := i = .ret ∨ i = .returnFromInterrupt

namespace Stacked

variable {base : Byte} {back : Word} {frames : List Word} {X P : Type} [RegisterBus P]
  {c : Chip X P}

/-- An interrupt pushes the program counter. -/
theorem takeInterrupt (h : Stacked base frames c.core) (room : frames.length < 128)
    (entry : c.entry?.isSome) : Stacked base (c.core.pc :: frames) c.takeInterrupt.1.core := by
  obtain ⟨⟨i, level⟩, taken⟩ := Option.isSome_iff_exists.1 entry
  rw [Chip.takeInterrupt_of_entry taken, Chip.core_enter]
  exact (h.pushWord room c.core.pc).congr rfl fun _ _ => rfl

variable [ExternalBus X] {code : Word → Byte}

/-- A call pushes the address behind it. -/
theorem call (h : Stacked base frames c.core) (room : frames.length < 128) {fetch : Fetch}
    (hf : fetch = Fetch.ofCode code c.core.pc) {reach : Reach} {target : Word}
    (decode : fetch.decode = .call reach target) :
    Stacked base (fetch.next :: frames) (c.executeNext code).1.core := by
  rw [Chip.executeNext_of_ne_reserved hf (by rw [decode]; exact nofun), decode]
  exact (h.pushWord room fetch.next).congr rfl fun _ _ => rfl

/-- A return jumps to the innermost address. -/
theorem returned (h : Stacked base (back :: frames) c.core)
    (returns : (Fetch.ofCode code c.core.pc).decode.Returns) :
    (c.executeNext code).1.core.pc = back ∧ Stacked base frames (c.executeNext code).1.core := by
  obtain ⟨first, rest⟩ := cons_iff.1 h
  obtain decode | decode := returns
  all_goals
    rw [Chip.executeNext_of_ne_reserved rfl (by rw [decode]; exact nofun), decode]
    exact ⟨first, rest.congr rfl fun _ _ => rfl⟩

end Stacked

/-- An entry pushes the address to return to, and a return jumps to an address. -/
inductive StackEvent where
  | entered (back : Word)
  | returned (target : Word)
  deriving DecidableEq, Repr

/-- The addresses still to be returned to after an event, the innermost first; none if a return has
gone elsewhere than to the innermost. -/
def StackEvent.openAfter? : List Word → StackEvent → Option (List Word)
  | frames, .entered back => some (back :: frames)
  | back :: frames, .returned target => if target = back then some frames else none
  | [], .returned _ => none

/-- The addresses still to be returned to after events, if each return has undone the innermost
entry. -/
def openFrames? (events : List StackEvent) : Option (List Word) :=
  events.foldlM StackEvent.openAfter? []

theorem openFrames?_concat {events : List StackEvent} {frames : List Word}
    (h : openFrames? events = some frames) (e : StackEvent) :
    openFrames? (events ++ [e]) = StackEvent.openAfter? frames e := by
  unfold openFrames? at h ⊢
  rw [List.foldlM_append, h]
  simp

/-- A chip and what has happened on its stack above `base`, in halves of a step: an interrupt is
taken, or an instruction is executed.  At most 128 entries are nested, and all that neither enters
nor returns leaves the stack pointer and the cells of the open entries alone. -/
inductive StackRun {X P : Type} [ExternalBus X] [RegisterBus P] (base : Byte) :
    Chip X P → Nat → List StackEvent → Prop where
  | start {c : Chip X P} (sp : c.core.sp = base) : StackRun base c 0 []
  | between {c c' : Chip X P} {n : Nat} {events : List StackEvent} (run : StackRun base c n events)
    (sp : c'.core.sp = c.core.sp)
    (cells : ∀ a ∈ stackCells base n, c'.core.readRam a = c.core.readRam a) :
    StackRun base c' n events
  | call {c c' : Chip X P} {n : Nat} {events : List StackEvent} (run : StackRun base c n events)
    (room : n < 128) {code : Word → Byte} {reach : Reach} {target : Word}
    (decode : (Fetch.ofCode code c.core.pc).decode = .call reach target)
    (executed : (c.executeNext code).1 = c') :
    StackRun base c' (n + 1) (events ++ [.entered (Fetch.ofCode code c.core.pc).next])
  | interrupt {c c' : Chip X P} {n : Nat} {events : List StackEvent}
    (run : StackRun base c n events) (room : n < 128) (entry : c.entry?.isSome) (taken : c.takeInterrupt.1 = c') :
    StackRun base c' (n + 1) (events ++ [.entered c.core.pc])
  | back {c c' : Chip X P} {n : Nat} {events : List StackEvent}
    (run : StackRun base c (n + 1) events) {code : Word → Byte}
    (returns : (Fetch.ofCode code c.core.pc).decode.Returns)
    (executed : (c.executeNext code).1 = c') :
    StackRun base c' n (events ++ [.returned c'.core.pc])

/-- The addresses still to be returned to are on the stack, and no return has gone elsewhere. -/
theorem StackRun.stacked {X P : Type} [ExternalBus X] [RegisterBus P] {base : Byte} {c : Chip X P}
    {n : Nat} {events : List StackEvent} (h : StackRun base c n events) :
    ∃ frames, frames.length = n ∧ openFrames? events = some frames ∧
      Stacked base frames c.core := by
  induction h with
  | start sp => exact ⟨[], rfl, rfl, .nil sp⟩
  | between _ sp cells ih =>
    obtain ⟨frames, rfl, still, stacked⟩ := ih
    exact ⟨frames, rfl, still, stacked.congr sp cells⟩
  | call _ room decode executed ih =>
    subst executed
    obtain ⟨frames, rfl, still, stacked⟩ := ih
    exact ⟨_ :: frames, rfl, openFrames?_concat still _, stacked.call room rfl decode⟩
  | interrupt _ room entry taken ih =>
    subst taken
    obtain ⟨frames, rfl, still, stacked⟩ := ih
    exact ⟨_ :: frames, rfl, openFrames?_concat still _, stacked.takeInterrupt room entry⟩
  | back _ returns executed ih =>
    subst executed
    obtain ⟨_ | ⟨innermost, frames⟩, length, still, stacked⟩ := ih
    · cases length
    · obtain ⟨pc, rest⟩ := stacked.returned returns
      have undone := openFrames?_concat still (.returned innermost)
      rw [StackEvent.openAfter?, if_pos rfl] at undone
      exact ⟨frames, Nat.succ.inj length, pc ▸ undone, rest⟩

/-- **Returns undo entries in order.**  Up to 128 words pushed one after the other, wherever the
stack begins, are popped in the opposite order; that restores the stack pointer, and of the core
nothing has changed but the cells of the RAM that the words take up.  So if no more than 128 calls
and interrupts are nested and all else leaves their cells and the stack pointer alone, each return,
from a routine or from an interrupt, goes to the address behind the innermost call, or to where its
interrupt was taken, and with the outermost the stack pointer is back. -/
theorem returns_undo_entries :
    (∀ (c : Core) (ws : List Word), ws.length ≤ 128 →
      let pushed := c.pushWords ws
      pushed.popWords ws.length = (ws.reverse, { c with ram := pushed.ram }) ∧
        ∀ a ∉ stackCells c.sp ws.length, pushed.readRam a = c.readRam a) ∧
    ∀ (X P : Type) [ExternalBus X] [RegisterBus P] (base : Byte) (c : Chip X P) (n : Nat)
      (events : List StackEvent), StackRun base c n events →
        c.core.sp = base + UInt8.ofNat (2 * n) ∧
          ∃ frames, frames.length = n ∧ openFrames? events = some frames ∧
            (c.core.popWords n).1 = frames := by
  refine ⟨fun c ws room => ⟨?_, fun a => Core.readRam_pushWords⟩, ?_⟩
  · have stacked : Stacked c.sp ws.reverse (c.pushWords ws) := by
      have pushed := (Stacked.nil rfl : Stacked c.sp [] c).pushWords ws (by simpa)
      rwa [List.append_nil] at pushed
    have popped := stacked.popWords
    obtain ⟨sp, only⟩ := c.pushWords_eq ws
    rw [List.length_reverse] at popped
    rw [popped]
    exact congrArg (fun d : Core => (ws.reverse, { d with sp := c.sp })) only
  · intro X P _ _ base c n events run
    obtain ⟨frames, rfl, still, stacked⟩ := run.stacked
    exact ⟨stacked.sp, frames, rfl, still, stacked.words⟩

/-- A program that timer 0 interrupts, and whose routine calls another one. -/
def callingRoutine (a : Word) : Byte :=
  if a = 0x0B then 0x12 else if a = 0x0C then 0x01 else if a = 0x0E then 0x32
  else if a = 0x100 then 0x22 else 0x00

/-- The bytes of the outer return address are at FFh and at 00h. -/
theorem returns_undo_entries_wrapped :
    let chip := interruptedChip.mapCore ({ · with sp := 0xFE })
    let entered := chip.takeInterrupt.1
    let called := (entered.executeNext callingRoutine).1
    let returned := (called.executeNext callingRoutine).1
    let left := (returned.executeNext callingRoutine).1
    let events := [.entered 0x05, .entered 0x0E, .returned 0x0E, .returned 0x05]
    let pushed := chip.core.pushWords [0x05, 0x0E]
    stackCells 0xFE 2 = [0xFF, 0x00, 0x01, 0x02] ∧
      pushed.popWords 2 = ([0x0E, 0x05], { chip.core with ram := pushed.ram }) ∧
      StackRun 0xFE left 0 events ∧ openFrames? events = some [] ∧ left.core.sp = 0xFE := by
  intro chip entered called returned left events pushed
  obtain ⟨words, runs⟩ := returns_undo_entries
  have entry : chip.entry?.isSome := by decide +kernel
  have call : (Fetch.ofCode callingRoutine entered.core.pc).decode = .call .long 0x100 := by
    decide +kernel
  have ret : (Fetch.ofCode callingRoutine called.core.pc).decode.Returns :=
    .inl (by decide +kernel)
  have reti : (Fetch.ofCode callingRoutine returned.core.pc).decode.Returns :=
    .inr (by decide +kernel)
  let back := (Fetch.ofCode callingRoutine entered.core.pc).next
  have happened : [.entered chip.core.pc, .entered back, .returned returned.core.pc,
      .returned left.core.pc] = events := by
    decide +kernel
  have start : StackRun 0xFE chip 0 [] := .start rfl
  have run : StackRun 0xFE left 0 [.entered chip.core.pc, .entered back,
      .returned returned.core.pc, .returned left.core.pc] :=
    (((start.interrupt (by decide) entry (rfl : _ = entered)).call (by decide) call
      (rfl : _ = called)).back ret (rfl : _ = returned)).back reti (rfl : _ = left)
  rw [happened] at run
  obtain ⟨sp, frames, none, still, -⟩ := runs _ _ 0xFE left 0 events run
  obtain rfl := List.length_eq_zero_iff.1 none
  exact ⟨by decide, (words chip.core [0x05, 0x0E] (by decide)).1, run, still, sp⟩

end Trainer51
