import Trainer51.Proofs.Dsm51.Inputs

/-!
# The sequential keyboard

All keys of the sequential keyboard drive one line.  The line follows the key that was moved last:
the release of any of the keys pulls it low, also while another one is held.  It stays low until
one of the keys is pressed again, and a program that waits for the line to fall takes the key that
is still held for released.

    the line is high if the last thing heard of any of the keys is a press        (line_after)
    a high line means that a key is held; a low one that none is held, or that the last change of
      the keyboard was the release of one key while another was held              (line_after_new)
-/

namespace Trainer51

def Key.isSequential : Key → Bool
  | sequential _ => true
  | matrix _ => false

theorem Key.same_line (key : Key) : decide (key.bit.Same sequentialLine) = key.isSequential := by
  cases key with
  | sequential => rfl
  | matrix k => exact decide_eq_false fun same => k.register_ne_port3 same.1

/-- Whether a change is about a key of the sequential keyboard, or about all keys. -/
def Change.ofLine : Change → Bool
  | keyPressed key | keyReleased key => key.isSequential
  | loaded _ => true
  | _ => false

/-- Other changes say nothing about the keys of the sequential keyboard. -/
theorem lastHeard_of_quiet {about : Key → Bool} (only : ∀ key, about key = true → key.isSequential)
    {changes : List Change} (quiet : ∀ change ∈ changes, change.ofLine = false) (down : Bool) :
    lastHeard about down changes = down := by
  induction changes generalizing down with
  | nil => rfl
  | cons change changes ih =>
    obtain ⟨now, later⟩ := List.forall_mem_cons.1 quiet
    refine (ih later (heard about down change)).trans ?_
    have other (key : Key) (matrix : key.isSequential = false) : about key = false := by
      refine Bool.eq_false_iff.2 fun asked => ?_
      rw [only key asked] at matrix
      cases matrix
    cases change with
    | keyPressed key => simp only [heard, other key now, Bool.false_or]
    | keyReleased key => simp only [heard, other key now, Bool.not_false, Bool.true_and]
    | loaded => cases now
    | _ => rfl

/-- The last of the changes that are about the sequential keyboard, if there is one. -/
theorem last_ofLine (changes : List Change) :
    (∀ change ∈ changes, change.ofLine = false) ∨
      ∃ before change after, changes = before ++ change :: after ∧ change.ofLine = true ∧
        ∀ change ∈ after, change.ofLine = false := by
  induction changes with
  | nil => exact .inl fun _ h => nomatch h
  | cons change changes ih =>
    obtain quiet | ⟨before, last, after, rfl, ofLine, quiet⟩ := ih
    · cases h : change.ofLine with
      | false => exact .inl (List.forall_mem_cons.2 ⟨h, quiet⟩)
      | true => exact .inr ⟨[], change, changes, rfl, h, quiet⟩
    · exact .inr ⟨change :: before, last, after, rfl, ofLine, quiet⟩

/-- Whether a key of the sequential keyboard is held after some changes, none before them. -/
def heldAfter (changes : List Change) (key : SequentialKey) : Bool :=
  lastHeard (· == .sequential key) false changes

/-- The last change of the sequential keyboard is the release of a key while another is held. -/
def Dropped (changes : List Change) : Prop :=
  ∃ before key after, changes = before ++ .keyReleased (.sequential key) :: after ∧
    (∀ change ∈ after, change.ofLine = false) ∧ ∃ other ≠ key, heldAfter before other = true

/-- What comes after the last change of the sequential keyboard can be left out. -/
theorem lastHeard_of_last {about : Key → Bool} (only : ∀ key, about key = true → key.isSequential)
    {before after : List Change} {change : Change}
    (quiet : ∀ change ∈ after, change.ofLine = false) (down : Bool) :
    lastHeard about down (before ++ change :: after) =
      heard about (lastHeard about down before) change := by
  rw [lastHeard_append]
  exact lastHeard_of_quiet only quiet (heard about (lastHeard about down before) change)

theorem only_sequential (key : SequentialKey) (k : Key) (h : (k == .sequential key) = true) :
    k.isSequential := by
  rw [beq_iff_eq.1 h]
  rfl

/-- A low line and a held key: the line was dropped. -/
theorem dropped_iff (changes : List Change) :
    Dropped changes ↔ lastHeard Key.isSequential false changes = false ∧
      ∃ key, heldAfter changes key = true := by
  constructor
  · rintro ⟨before, key, after, rfl, quiet, other, ne, held⟩
    refine ⟨lastHeard_of_last (fun _ h => h) quiet false, other, ?_⟩
    refine (lastHeard_of_last (only_sequential other) quiet false).trans ?_
    have : (Key.sequential key == .sequential other) = false := by
      refine beq_eq_false_iff_ne.2 fun same => ne ?_
      cases same
      rfl
    show (!(Key.sequential key == .sequential other) && heldAfter before other) = true
    rw [this, held]
    rfl
  · rintro ⟨low, other, held⟩
    obtain quiet | ⟨before, change, after, rfl, ofLine, quiet⟩ := last_ofLine changes
    · rw [heldAfter, lastHeard_of_quiet (only_sequential other) quiet] at held
      cases held
    · rw [lastHeard_of_last (fun _ h => h) quiet] at low
      rw [heldAfter, lastHeard_of_last (only_sequential other) quiet] at held
      cases change with
      | keyPressed key =>
        have pressed : key.isSequential = true := ofLine
        simp only [heard, pressed, Bool.true_or, Bool.true_eq_false] at low
      | keyReleased key =>
        cases key with
        | matrix => cases ofLine
        | sequential key =>
          obtain ⟨released, held⟩ := Bool.and_eq_true_iff.1 held
          refine ⟨before, key, after, rfl, quiet, other, ?_, held⟩
          rintro rfl
          simp at released
      | loaded => cases held
      | _ => cases ofLine

/-- The key whose press was the last change is held. -/
theorem held_of_high {changes : List Change}
    (high : lastHeard Key.isSequential false changes = true) :
    ∃ key, heldAfter changes key = true := by
  obtain ⟨key, sequential, held⟩ := exists_lastHeard (fun _ => false) false nofun high
  cases key with
  | matrix => cases sequential
  | sequential key => exact ⟨key, held⟩

namespace Workbench

/-- The line is high if the last thing heard of any of its keys is a press. -/
theorem line_after (w : Workbench Dsm51) (script : Script) :
    (w.after script).machine.level Key.sequentialLine =
      lastHeard Key.isSequential (w.machine.level Key.sequentialLine) (w.announced script) := by
  refine (level_after w script (.sequential .enter)).trans ?_
  exact lastHeard_congr (fun _ _ key _ => key.same_line) _

theorem heldAfter_announced (machine : Dsm51) (lister : Lister) (s : Settings) (script : Script)
    (key : SequentialKey) :
    ((new machine lister s).after script).keys.isHeld (.sequential key) =
      heldAfter ((new machine lister s).announced script) key :=
  isHeld_after (new machine lister s) script (.sequential key)

/-- **The line follows the key that was moved last.**  After every script, in either mode of key
releases, the line of the sequential keyboard is high only while one of its keys is held.  It says
whether one is held unless the last change of the keyboard was the release of one key while another
was held: then it is low, and stays so. -/
theorem line_after_new (format : ImageFormat) (lister : Lister) (s : Settings) (script : Script) :
    let w := (new (Dsm51.new format) lister s).after script
    let changes := (new (Dsm51.new format) lister s).announced script
    let line := w.machine.level Key.sequentialLine
    (∀ key, w.keys.isHeld (.sequential key) = heldAfter changes key) ∧
      (line = true → ∃ key, w.keys.isHeld (.sequential key) = true) ∧
      ((line = true ↔ ∃ key, w.keys.isHeld (.sequential key) = true) ↔ ¬ Dropped changes) := by
  intro w changes line
  have held (key : SequentialKey) : w.keys.isHeld (.sequential key) = heldAfter changes key :=
    heldAfter_announced _ lister s script key
  have low : (Dsm51.new format).level Key.sequentialLine = false :=
    Dsm51.level_new format (.sequential .enter)
  have heard : line = lastHeard Key.isSequential false changes := by
    refine (line_after (new (Dsm51.new format) lister s) script).trans ?_
    rw [show (new (Dsm51.new format) lister s).machine = Dsm51.new format from rfl, low]
  have high : line = true → ∃ key, heldAfter changes key = true := by
    rw [heard]
    exact held_of_high
  have some : (∃ key, w.keys.isHeld (.sequential key) = true) ↔
      ∃ key, heldAfter changes key = true := exists_congr fun key => by rw [held]
  rw [some, dropped_iff, ← heard]
  refine ⟨held, high, ?_⟩
  cases h : line with
  | true => simp [high h]
  | false => simp

/-! ## A key that is held while the line is low -/

/-- Selects the first two columns: `MOV DPTR,#FF30h`, `MOV A,#3`, `MOVX @DPTR,A`. -/
def columnsProgram : List Byte := [0x90, 0xFF, 0x30, 0x74, 0x03, 0xF0]

/-- Both keys are pressed, one of them is released. -/
def twoKeys : Script :=
  [(0, .command (.pressKey (.sequential .enter))), (0, .command (.pressKey (.sequential .esc))),
    (0, .command (.releaseKey (.sequential .esc)))]

/-- No key changes which keys are listened to. -/
theorem listening_drive (d : Dsm51) (key : Key) (down : Bool) (other : Key) :
    HeldKeys.listening (HeldKeys.drive d key down) other = HeldKeys.listening d other := by
  obtain ⟨display, refreshed⟩ := (d.drive key.bit down).refresh_eq
  have devices : (HeldKeys.drive d key down).external.devices.csds =
      d.external.devices.csds := by
    show (d.drive key.bit down).refresh.external.devices.csds = _
    rw [refreshed]
    unfold Dsm51.drive
    split <;> rfl
  cases other with
  | sequential key => exact congrArg (·.bit key.column) devices
  | matrix => rfl

theorem announced_press {w : Workbench Dsm51} {key : Key}
    (heard : HeldKeys.listening w.machine key) (now : Nat) (script : Script) :
    ∃ v : Workbench Dsm51, v.machine = HeldKeys.drive w.machine key true ∧
      w.announced ((now, .command (.pressKey key)) :: script) =
        .keyPressed key :: v.announced script := by
  have noticed := pressKey_noticed heard
  refine ⟨(w.pressKey key).bench, by rw [noticed]; rfl, ?_⟩
  refine (announced_cons w (now, .command (.pressKey key)) script).trans ?_
  show (w.pressKey key).changes ++ (w.pressKey key).bench.announced script = _
  rw [noticed]
  rfl

theorem announced_release {w : Workbench Dsm51} {key : Key}
    (heard : HeldKeys.listening w.machine key) (now : Nat) :
    w.announced [(now, .command (.releaseKey key))] = [.keyReleased key] := by
  refine (announced_cons w (now, .command (.releaseKey key)) []).trans ?_
  show (w.releaseKey key).changes ++ _ = _
  rw [releaseKey_noticed (.inr heard)]
  rfl

/-- With both columns selected every press and release is noticed. -/
theorem announced_twoKeys {w : Workbench Dsm51}
    (columns : w.machine.external.devices.csds = 0x03) :
    w.announced twoKeys = [.keyPressed (.sequential .enter), .keyPressed (.sequential .esc),
      .keyReleased (.sequential .esc)] := by
  have enter : HeldKeys.listening w.machine (.sequential .enter) = true := by
    show w.machine.external.devices.csds.bit 0 = true
    rw [columns]
    decide
  have esc : HeldKeys.listening w.machine (.sequential .esc) = true := by
    show w.machine.external.devices.csds.bit 1 = true
    rw [columns]
    decide
  obtain ⟨w₁, machine₁, first⟩ := announced_press enter 0 (twoKeys.drop 1)
  have esc₁ : HeldKeys.listening w₁.machine (.sequential .esc) = true := by
    rw [machine₁, listening_drive, esc]
  obtain ⟨w₂, machine₂, second⟩ := announced_press esc₁ 0 (twoKeys.drop 2)
  have esc₂ : HeldKeys.listening w₂.machine (.sequential .esc) = true := by
    rw [machine₂, listening_drive, esc₁]
  rw [show w.announced twoKeys = _ from first, show w₁.announced (twoKeys.drop 1) = _ from second]
  rw [show w₂.announced (twoKeys.drop 2) = _ from announced_release esc₂ 0]

/-- What the program has selected, whatever the code memory around it is. -/
theorem csds_after_columns :
    ((new (Dsm51.new .binary) (Dsm51.lister .binary) {}).after
      ((0, .command (.load columnsProgram)) :: steps 3)).machine.external.devices.csds = 0x03 := by
  have columns : ((Dsm51.new .binary).advanceOn? (blankCode columnsProgram) 3).map
      (·.external.devices.csds) = some 0x03 := by decide +kernel
  obtain ⟨d, advanced, csds⟩ := Option.map_eq_some_iff.1 columns
  obtain ⟨code, ready⟩ := ready_program {} rfl (by decide) advanced
  rw [ready.machine]
  exact csds

/-- One of two keys that are down is released: the other is held, and the line is low. -/
theorem line_dropped :
    let w := (new (Dsm51.new .binary) (Dsm51.lister .binary) {}).after
      (((0, .command (.load columnsProgram)) :: steps 3) ++ twoKeys)
    w.keys.isHeld (.sequential .enter) = true ∧ w.machine.level Key.sequentialLine = false := by
  intro w
  have announced := announced_twoKeys csds_after_columns
  have run : w = ((new (Dsm51.new .binary) (Dsm51.lister .binary) {}).after
      ((0, .command (.load columnsProgram)) :: steps 3)).after twoKeys := after_append _ _ _
  rw [run, isHeld_after, line_after, announced]
  generalize (new (Dsm51.new .binary) (Dsm51.lister .binary) {}).after
    ((0, .command (.load columnsProgram)) :: steps 3) = before
  constructor
  · simp [lastHeard, heard]
  · rfl

end Workbench

end Trainer51
