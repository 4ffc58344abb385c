import Trainer51.Proofs.Dsm51.Restart
import Trainer51.Proofs.Workbench.Announced

/-!
# The inputs of a board

Keys are recorded twice: the board has a bit for them, and the workbench has the keys that are held.
No program changes the inputs, and whoever presses or releases a key announces it.  So both records
can be worked out from what has been announced: an input bit from the changes about any key that
drives it, a held key from the changes about that key alone.

    a program leaves every input as it is                                   (input_step)
    the level of a bit is the last thing heard of the keys on it            (level_after)
    a key is held if the last thing heard of it is that it was pressed      (isHeld_after)
-/

namespace Trainer51

/-- Two names of the same bit; positions count modulo eight. -/
def InputBit.Same (b b' : InputBit) : Prop :=
  b.register = b'.register ∧ b.position % 8 = b'.position % 8

instance (b b' : InputBit) : Decidable (b.Same b') :=
  inferInstanceAs (Decidable (b.register = b'.register ∧ b.position % 8 = b'.position % 8))

/-- The matrix keyboard is not wired to port 3. -/
theorem MatrixKey.register_ne_port3 (k : MatrixKey) : k.bit.register ≠ .port3 := by
  cases k with
  | digit d =>
    simp only [bit]
    split <;> exact nofun
  | _ => exact nofun

/-! ## What changes an input -/

namespace Dsm51

/-- Whether an input bit is set. -/
def level (d : Dsm51) (b : InputBit) : Bool := (d.input b.register).bit b.position

theorem level_congr {d d' : Dsm51} (h : d'.input = d.input) (b : InputBit) :
    d'.level b = d.level b := by
  unfold level
  rw [h]

theorem input_setInput (d : Dsm51) (b : Byte) (r r' : InputRegister) :
    (d.setInput b r).input r' = if r = r' then b else d.input r' := by
  cases r <;> cases r' <;> rfl

theorem level_drive (d : Dsm51) (b b' : InputBit) (on : Bool) :
    (d.drive b on).level b' = if b.Same b' then on else d.level b' := by
  obtain ⟨register, position⟩ := b
  unfold level
  rw [drive_eq, input_setInput]
  by_cases same : register = b'.register
  · subst same
    rw [if_pos rfl, Byte.bit_setBit]
    simp [InputBit.Same, eq_comm]
  · rw [if_neg same, if_neg fun h => same h.1]

theorem input_refresh (d : Dsm51) : d.refresh.input = d.input := by
  obtain ⟨display, refreshed⟩ := d.refresh_eq
  rw [refreshed]
  funext r
  cases r <;> rfl

/-- The inputs of the external memory and of the ports. -/
def inputsOf (x : ExternalData) (p : Peripherals) : Byte × Byte × Byte :=
  (x.devices.cskb0, x.devices.cskb1, p.outside.p3)

theorem input_congr {d d' : Dsm51}
    (h : inputsOf d'.external d'.peripherals = inputsOf d.external d.peripherals) :
    d'.input = d.input := by
  simp only [inputsOf, Prod.mk.injEq] at h
  funext r
  cases r with
  | cskb0 => exact h.1
  | cskb1 => exact h.2.1
  | port3 => exact h.2.2

/-- The key banks cannot be written. -/
theorem inputsOf_write (x : ExternalData) (p : Peripherals) (a : Word) (v : Byte) :
    inputsOf (x.write a v) p = inputsOf x p := by
  unfold ExternalData.write
  split <;> rfl

theorem busesKeep_inputs (inputs : Byte × Byte × Byte) :
    BusesKeep (fun (x : ExternalData) (p : Peripherals) => inputsOf x p = inputs) where
  external x p a v h := (inputsOf_write x p a v).trans h
  register x p a v h := by
    refine Eq.trans ?_ h
    show inputsOf x (p.write a v) = _
    unfold Peripherals.write
    split
    · rfl
    · split <;> rfl

/-- A program leaves every input as it is, whether or not its step fails. -/
theorem input_step (d : Dsm51) : (Machine.step d).1.input = d.input := by
  have kept := (busesKeep_inputs (inputsOf d.external d.peripherals)).step d.code.read
    (c := d.chip) rfl
  refine input_congr (Eq.trans ?_ kept)
  obtain ⟨chip, cycles, executed, after, -⟩ | ⟨chip, e, failed, after, -⟩ :=
    step_cases (Prod.eta (Machine.step d)).symm
  · obtain ⟨display, settled⟩ := settle_eq { d with chip } cycles
    rw [after, executed, settled]
    rfl
  · rw [after, failed]
    rfl

theorem input_load (d : Dsm51) (file : List Byte) : (Machine.load d file).1.input = d.input := by
  show (d.load file).1.input = d.input
  unfold load
  split
  · funext r
    cases r <;> rfl
  · rfl

theorem input_clearWorking (d : Dsm51) : d.clearWorking.input = d.input := by
  funext r
  cases r <;> rfl

/-! ## Keys and their bits -/

/-- A key drives its bit and no other. -/
theorem level_driveKey (d : Dsm51) (key : Key) (down : Bool) (b : InputBit) :
    (HeldKeys.drive d key down).level b = if key.bit.Same b then down else d.level b :=
  (level_congr (input_refresh _) b).trans (d.level_drive key.bit b down)

/-- On a new board no key is down. -/
theorem level_new (format : ImageFormat) (key : Key) : (new format).level key.bit = false := by
  cases key with
  | sequential =>
    show Byte.bit 0xDF 5 = false
    decide
  | matrix k =>
    have blank : (new format).input k.bit.register = 0 := by
      cases register : k.bit.register with
      | port3 => exact absurd register k.register_ne_port3
      | cskb0 | cskb1 => rfl
    show ((new format).input k.bit.register).bit k.bit.position = false
    rw [blank, Byte.bit_zero]

end Dsm51

/-! ## What is heard of the keys -/

/-- Whether one of some keys is down as far as a change tells, `down` before it.  A load leaves no
key down. -/
def heard (about : Key → Bool) (down : Bool) : Change → Bool
  | .keyPressed key => about key || down
  | .keyReleased key => !about key && down
  | .loaded _ => false
  | _ => down

/-- The last thing heard of some keys. -/
def lastHeard (about : Key → Bool) (down : Bool) (changes : List Change) : Bool :=
  changes.foldl (heard about) down

theorem lastHeard_append (about : Key → Bool) (down : Bool) (changes later : List Change) :
    lastHeard about down (changes ++ later) = lastHeard about (lastHeard about down changes) later :=
  List.foldl_append

/-- Releases end what they are about. -/
theorem lastHeard_released (about : Key → Bool) (down : Bool) (keys : List Key) :
    lastHeard about down (keys.map .keyReleased) = (!keys.any about && down) := by
  induction keys generalizing down with
  | nil => rfl
  | cons key keys ih =>
    refine (ih (!about key && down)).trans ?_
    rw [List.any_cons, Bool.not_or, Bool.and_left_comm, Bool.and_assoc]

/-- It matters only what is asked about the keys that are heard of. -/
theorem lastHeard_congr {about about' : Key → Bool} {changes : List Change}
    (same : ∀ change ∈ changes, ∀ key, change.key? = some key → about key = about' key)
    (down : Bool) : lastHeard about down changes = lastHeard about' down changes := by
  induction changes generalizing down with
  | nil => rfl
  | cons change changes ih =>
    obtain ⟨now, later⟩ := List.forall_mem_cons.1 same
    have : heard about down change = heard about' down change := by
      cases change with
      | keyPressed key | keyReleased key => simp only [heard, now key rfl]
      | _ => rfl
    show lastHeard about (heard about down change) changes = _
    rw [this]
    exact ih later _

/-- Keys that are down now and were not before have been pressed. -/
theorem pressed_of_lastHeard {about : Key → Bool} {down : Bool} {changes : List Change}
    (h : lastHeard about down changes = true) :
    down = true ∨ ∃ key, about key = true ∧ .keyPressed key ∈ changes := by
  induction changes generalizing down with
  | nil => exact .inl h
  | cons change changes ih =>
    obtain before | ⟨key, asked, pressed⟩ := ih h
    · cases change with
      | keyPressed key =>
        obtain asked | before := Bool.or_eq_true_iff.1 before
        · exact .inr ⟨key, asked, List.mem_cons_self⟩
        · exact .inl before
      | keyReleased key => exact .inl (Bool.and_eq_true_iff.1 before).2
      | loaded => cases before
      | _ => exact .inl before
    · exact .inr ⟨key, asked, List.mem_cons_of_mem _ pressed⟩

/-- When one of some keys is down as far as is known, one of them has been heard of last as
pressed. -/
theorem exists_lastHeard {about : Key → Bool} (before : Key → Bool) (down : Bool)
    {changes : List Change}
    (known : down = true → ∃ key, about key = true ∧ before key = true)
    (h : lastHeard about down changes = true) :
    ∃ key, about key = true ∧ lastHeard (· == key) (before key) changes = true := by
  induction changes generalizing down before with
  | nil => exact known h
  | cons change changes ih =>
    refine ih (fun key => heard (· == key) (before key) change) _ (fun down' => ?_) h
    cases change with
    | keyPressed pressed =>
      obtain asked | down := Bool.or_eq_true_iff.1 down'
      · exact ⟨pressed, asked, by simp [heard]⟩
      · obtain ⟨key, asked, held⟩ := known down
        exact ⟨key, asked, by simp [heard, held]⟩
    | keyReleased released =>
      obtain ⟨other, down⟩ := Bool.and_eq_true_iff.1 down'
      obtain ⟨key, asked, held⟩ := known down
      -- the key that was released is not one of those asked about, so it is not this one
      have ne : (released == key) = false := by
        refine beq_eq_false_iff_ne.2 fun same => ?_
        rw [same, asked] at other
        cases other
      exact ⟨key, asked, by simp [heard, ne, held]⟩
    | loaded => cases down'
    | _ => exact known down'

namespace Workbench

/-- A key is held if the last thing heard of it is that it was pressed. -/
theorem Move.isHeld {M : Type} [Machine M] {w : Workbench M}
    {o : Outcome M (Except BenchError Unit)} (move : Move w o) (key : Key) :
    o.bench.keys.isHeld key = lastHeard (· == key) (w.keys.isHeld key) o.changes := by
  cases move with
  | pressed pressed heard =>
    show (pressed.insertInOrder w.keys.keys).contains key =
      (pressed == key || w.keys.keys.contains key)
    rw [Bool.eq_iff_iff, List.contains_iff_mem, Key.mem_insertInOrder, @eq_comm _ key]
    simp
  | released released heard =>
    show (w.keys.keys.filter (· != released)).contains key =
      (!(released == key) && w.keys.keys.contains key)
    rw [Bool.eq_iff_iff, List.contains_iff_mem, List.mem_filter, and_comm, bne_comm]
    simp [bne]
  | allReleased anywhere some =>
    refine Eq.trans ?_ (lastHeard_released (· == key) (w.keys.isHeld key) w.keys.keys).symm
    show false = (!w.keys.keys.any (· == key) && w.keys.keys.contains key)
    rw [List.any_beq', Bool.not_and_self]
  | _ => rfl

theorem level_foldl_drive (keys : List Key) (d : Dsm51) (b : InputBit) :
    (keys.foldl (HeldKeys.drive · · false) d).level b =
      (!keys.any (·.bit.Same b) && d.level b) := by
  induction keys generalizing d with
  | nil => rfl
  | cons key keys ih =>
    rw [List.foldl_cons, ih, Dsm51.level_driveKey, List.any_cons]
    by_cases same : key.bit.Same b <;> simp [same]

/-- The level of a bit is the last thing heard of the keys that drive it. -/
theorem Move.level {w : Workbench Dsm51} {o : Outcome Dsm51 (Except BenchError Unit)}
    (move : Move w o) (key : Key) :
    o.bench.machine.level key.bit =
      lastHeard (·.bit.Same key.bit) (w.machine.level key.bit) o.changes := by
  have cleared (image : List Byte) :
      (Machine.load (Machine.clearAll w.machine) image).1.level key.bit = false :=
    (Dsm51.level_congr (Dsm51.input_load _ image) _).trans (Dsm51.level_new w.machine.format key)
  cases move with
  | loaded image rows machine accepted load =>
    have := cleared image
    rwa [load] at this
  | unloaded image rows machine e accepted load =>
    have := cleared image
    rwa [load] at this
  | stepped machine run same step =>
    have := Dsm51.input_step w.machine
    rw [step] at this
    exact Dsm51.level_congr this _
  | halted machine e step =>
    have := Dsm51.input_step w.machine
    rw [step] at this
    exact Dsm51.level_congr this _
  | reset => exact Dsm51.level_congr (Dsm51.input_clearWorking _) _
  | refreshed => exact Dsm51.level_congr (Dsm51.input_refresh _) _
  | pressed pressed heard =>
    refine (Dsm51.level_driveKey w.machine pressed true key.bit).trans ?_
    show _ = (decide (pressed.bit.Same key.bit) || w.machine.level key.bit)
    by_cases same : pressed.bit.Same key.bit <;> simp [same]
  | released released heard =>
    refine (Dsm51.level_driveKey w.machine released false key.bit).trans ?_
    show _ = (!decide (released.bit.Same key.bit) && w.machine.level key.bit)
    by_cases same : released.bit.Same key.bit <;> simp [same]
  | allReleased anywhere some =>
    exact (level_foldl_drive _ _ _).trans (lastHeard_released _ _ w.keys.keys).symm
  | _ => rfl

/-! ## Noticed keys -/

theorem pressKey_noticed {M : Type} [Machine M] {w : Workbench M} {key : Key}
    (heard : HeldKeys.listening w.machine key) :
    w.pressKey key = (w.keyed { w.keys with keys := key.insertInOrder w.keys.keys }
      (HeldKeys.drive w.machine key true)).announce (.keyPressed key) () := by
  unfold pressKey HeldKeys.press?
  rw [if_pos heard]

theorem releaseKey_noticed {M : Type} [Machine M] {w : Workbench M} {key : Key}
    (heard : w.keys.mode = .global ∨ HeldKeys.listening w.machine key) :
    w.releaseKey key = (w.keyed { w.keys with keys := w.keys.keys.filter (· != key) }
      (HeldKeys.drive w.machine key false)).announce (.keyReleased key) () := by
  unfold releaseKey HeldKeys.release?
  rw [if_pos (by simpa using heard)]

/-! ## After a script -/

section

variable {M : Type} [Machine M]

theorem isHeld_after (w : Workbench M) (script : Script) (key : Key) :
    (w.after script).keys.isHeld key =
      lastHeard (· == key) (w.keys.isHeld key) (w.announced script) := by
  induction script generalizing w with
  | nil => rfl
  | cons o script ih =>
    rw [announced_cons, lastHeard_append, ← (move_perform w o.1 o.2).isHeld key]
    exact ih _

/-- Only a key that is asked for, or was held before, is heard of. -/
theorem asked_of_announced {w : Workbench M} {script : Script} {change : Change} {key : Key}
    (h : change ∈ w.announced script) (about : change.key? = some key) :
    (∃ o ∈ script, o.2.key? = some key) ∨ key ∈ w.keys.keys := by
  induction script generalizing w with
  | nil => cases h
  | cons o script ih =>
    have first {change : Change} (h : change ∈ (w.perform o.1 o.2).changes)
        (about : change.key? = some key) :
        (∃ o' ∈ o :: script, o'.2.key? = some key) ∨ key ∈ w.keys.keys :=
      (key_of_announced h about).imp_left fun asked => ⟨o, List.mem_cons_self, asked⟩
    rw [announced_cons] at h
    obtain now | later := List.mem_append.1 h
    · exact first now about
    · obtain ⟨o', member, asked⟩ | held := ih later
      · exact .inl ⟨o', List.mem_cons_of_mem _ member, asked⟩
      · have heard := (move_perform w o.1 o.2).isHeld key
        rw [show (w.perform o.1 o.2).bench.keys.isHeld key = true from
          List.contains_iff_mem.2 held] at heard
        obtain before | ⟨pressed, same, announced⟩ := pressed_of_lastHeard heard.symm
        · exact .inr (List.contains_iff_mem.1 before)
        · obtain rfl := beq_iff_eq.1 same
          exact first announced rfl

end

theorem level_after (w : Workbench Dsm51) (script : Script) (key : Key) :
    (w.after script).machine.level key.bit =
      lastHeard (·.bit.Same key.bit) (w.machine.level key.bit) (w.announced script) := by
  induction script generalizing w with
  | nil => rfl
  | cons o script ih =>
    rw [announced_cons, lastHeard_append, ← (move_perform w o.1 o.2).level key]
    exact ih _

end Workbench

end Trainer51
