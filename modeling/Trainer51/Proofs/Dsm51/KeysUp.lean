import Trainer51.Proofs.Dsm51.SequentialKeyboard
import Trainer51.Screen.Grid
import Trainer51.Terminal

/-!
# No key gets stuck

Several keys may drive one bit, and the release of one of them clears the bit while another one is
held.  It never happens the other way round: a bit that is set has a held key on it, whatever has
been pressed, released, loaded and reset before.  So once all held keys are released every bit of
the keyboards is clear; and as a settled board has nothing to refresh, nothing else is different.

    a bit that is set has a held key on it                      (exists_held_of_level)
    releasing the held keys leaves the board with its keys up   (foldl_drive_eq_keysUp)
    the pointer is released                                     (no_stuck_keys_after_new)
-/

namespace Trainer51

/-! ## Bits and held keys -/

theorem InputBit.Same.trans {a b c : InputBit} (h : a.Same b) (h' : b.Same c) : a.Same c :=
  ⟨h.1.trans h'.1, h.2.trans h'.2⟩

/-- Every bit of the two banks belongs to a key. -/
theorem MatrixKey.exists_same (b : InputBit) (h : b.register ≠ .port3) :
    ∃ key : Key, key.bit.Same b := by
  have banks : ∀ register : InputRegister, register ≠ .port3 → ∀ n < 8,
      ∃ k ∈ all, k.bit.Same ⟨register, n⟩ := by
    intro register
    cases register <;> decide
  obtain ⟨k, -, same⟩ := banks b.register h (b.position % 8) (Nat.mod_lt _ (by decide))
  exact ⟨.matrix k, same.1, same.2.trans (Nat.mod_mod _ _)⟩

/-- Of the pins no key drives another than the line of the sequential keyboard. -/
theorem Key.line_of_same {key : Key} {n : Nat} (h : key.bit.Same ⟨.port3, n⟩) :
    n % 8 = sequentialLine.position % 8 := by
  have position : key.bit.position = sequentialLine.position := position_of_port3 h.1
  rw [← h.2, position]

namespace Workbench

/-- A bit that is set has a held key on it. -/
theorem exists_held_of_level (format : ImageFormat) (lister : Lister) (s : Settings)
    (script : Script) {key : Key}
    (set : ((new (Dsm51.new format) lister s).after script).machine.level key.bit = true) :
    ∃ held ∈ ((new (Dsm51.new format) lister s).after script).keys.keys, held.bit.Same key.bit := by
  rw [level_after] at set
  have up : (new (Dsm51.new format) lister s).machine.level key.bit = false :=
    Dsm51.level_new format key
  rw [up] at set
  obtain ⟨held, same, heard⟩ := exists_lastHeard (fun _ => false) false nofun set
  refine ⟨held, List.contains_iff_mem.1 ?_, of_decide_eq_true same⟩
  exact (isHeld_after (new (Dsm51.new format) lister s) script held).trans heard

end Workbench

/-! ## The inputs of a board as a whole -/

namespace Dsm51

/-- A board with other inputs. -/
def withInputs (d : Dsm51) (input : InputRegister → Byte) : Dsm51 :=
  { d with
    chip := { d.chip with
      external := { d.external with
        devices := { d.external.devices with cskb0 := input .cskb0, cskb1 := input .cskb1 } }
      registers := { d.peripherals with
        outside := { d.peripherals.outside with p3 := input .port3 } } } }

/-- A board with no key of either keyboard down. -/
def keysUp (d : Dsm51) : Dsm51 :=
  d.withInputs fun
    | .cskb0 | .cskb1 => 0
    | .port3 => (d.input .port3).setBit Key.sequentialLine.position false

theorem withInputs_withInputs (d : Dsm51) (input other : InputRegister → Byte) :
    (d.withInputs input).withInputs other = d.withInputs other := rfl

theorem drive_eq_withInputs (d : Dsm51) (b : InputBit) (on : Bool) :
    d.drive b on = d.withInputs (d.drive b on).input := by
  obtain ⟨register, position⟩ := b
  cases register <;> rfl

theorem level_same {b b' : InputBit} (h : b.Same b') (d : Dsm51) : d.level b = d.level b' := by
  unfold level
  rw [h.1, ← Byte.bit_mod, h.2, Byte.bit_mod]

/-- Inputs that leave the interrupt pins high leave nothing to refresh. -/
theorem Settled.withInputs {d : Dsm51} (h : d.Settled) {input : InputRegister → Byte}
    (lines : ∀ line : RequestLine, (input .port3).bit line.pin = true) :
    (d.withInputs input).Settled where
  outside := ⟨h.outside.switch, lines⟩
  follows := by
    intro line level
    have pins : ((d.withInputs input).peripherals.pins .p3).bit line.pin =
        (d.peripherals.pins .p3).bit line.pin := by
      show (d.peripherals.latches.p3 &&& input .port3).bit line.pin =
        (d.peripherals.latches.p3 &&& d.peripherals.outside.p3).bit line.pin
      rw [Byte.bit_and, Byte.bit_and, lines line, h.outside.lines line]
    rw [pins]
    exact h.follows line level
  shown := h.shown

/-- On a settled board a key drives its bit and does nothing else. -/
theorem Settled.driveKey {d : Dsm51} (h : d.Settled) (key : Key) (down : Bool) :
    HeldKeys.drive d key down = d.drive key.bit down ∧ (d.drive key.bit down).Settled := by
  have settled : (d.drive key.bit down).Settled := by
    rw [drive_eq_withInputs]
    exact h.withInputs (pulledUp_drive h.outside key down).lines
  exact ⟨settled.refresh, settled⟩

/-- Releasing keys on a settled board changes only its inputs. -/
theorem Settled.foldl_drive {d : Dsm51} (h : d.Settled) (keys : List Key) :
    keys.foldl (HeldKeys.drive · · false) d =
      d.withInputs (keys.foldl (HeldKeys.drive · · false) d).input := by
  refine (Workbench.foldl_drive (p := fun v => v.Settled ∧ v = d.withInputs v.input) ?_ keys d
    ⟨h, rfl⟩).2
  rintro v key ⟨settled, eq⟩
  obtain ⟨driven, settled⟩ := settled.driveKey key false
  rw [driven]
  refine ⟨settled, (v.drive_eq_withInputs key.bit false).trans ?_⟩
  generalize (v.drive key.bit false).input = input
  rw [eq, withInputs_withInputs]

/-- Where a held key accounts for every bit that is set, releasing the held keys leaves no key
down. -/
theorem foldl_drive_eq_keysUp {d : Dsm51} (h : d.Settled) {keys : List Key}
    (accounted : ∀ key : Key, d.level key.bit = true → ∃ held ∈ keys, held.bit.Same key.bit) :
    keys.foldl (HeldKeys.drive · · false) d = d.keysUp := by
  have level (b : InputBit) := Workbench.level_foldl_drive keys d b
  have cleared (key : Key) (b : InputBit) (same : key.bit.Same b) :
      (keys.foldl (HeldKeys.drive · · false) d).level b = false := by
    rw [level b, ← level_same same]
    cases set : d.level key.bit with
    | false => rw [Bool.and_false]
    | true =>
      obtain ⟨held, member, on⟩ := accounted key set
      have any : keys.any (·.bit.Same b) = true :=
        List.any_eq_true.2 ⟨held, member, decide_eq_true (on.trans same)⟩
      rw [any]
      rfl
  have bank (register : InputRegister) (ne : register ≠ .port3) :
      (keys.foldl (HeldKeys.drive · · false) d).input register = 0 := by
    refine Byte.ext_bits fun n => ?_
    obtain ⟨key, same⟩ := MatrixKey.exists_same ⟨register, n⟩ ne
    exact (cleared key _ same).trans (Byte.bit_zero n).symm
  have port3 : (keys.foldl (HeldKeys.drive · · false) d).input .port3 =
      (d.input .port3).setBit Key.sequentialLine.position false := by
    refine Byte.ext_bits fun n => ?_
    rw [Byte.bit_setBit]
    split
    · next line => exact cleared (.sequential .enter) ⟨.port3, n⟩ ⟨rfl, line.symm⟩
    · next other =>
      refine (level ⟨.port3, n⟩).trans ?_
      have none : keys.any (·.bit.Same ⟨.port3, n⟩) = false :=
        List.any_eq_false.2 fun key _ on => other (Key.line_of_same (of_decide_eq_true on))
      rw [none]
      rfl
  rw [h.foldl_drive]
  refine congrArg d.withInputs (funext fun register => ?_)
  cases register with
  | cskb0 | cskb1 => exact bank _ nofun
  | port3 => exact port3

/-- What a key does is undone when all keys are up. -/
theorem keysUp_driveKey (d : Dsm51) (key : Key) (down : Bool) :
    (d.drive key.bit down).keysUp = d.keysUp := by
  have line : ((d.drive key.bit down).input .port3).setBit Key.sequentialLine.position false =
      (d.input .port3).setBit Key.sequentialLine.position false := by
    refine Byte.ext_bits fun n => ?_
    rw [Byte.bit_setBit, Byte.bit_setBit]
    split
    · rfl
    · next other =>
      refine (d.level_drive key.bit ⟨.port3, n⟩ down).trans ?_
      exact if_neg fun same => other (Key.line_of_same same)
  unfold keysUp
  rw [drive_eq_withInputs] at line ⊢
  rw [withInputs_withInputs]
  refine congrArg d.withInputs (funext fun register => ?_)
  cases register with
  | cskb0 | cskb1 => rfl
  | port3 => exact line

end Dsm51

/-! ## Every session -/

namespace Workbench

/-- What is left of `w` once the pointer has been released. -/
structure KeysUp (w v : Workbench Dsm51) : Prop where
  held : ∀ key, v.keys.isHeld key = false
  cskb0 : v.machine.external.devices.cskb0 = 0
  cskb1 : v.machine.external.devices.cskb1 = 0
  line : v.machine.peripherals.outside.p3.bit 5 = false
  otherPins : ∀ n, n % 8 ≠ 5 →
    v.machine.peripherals.outside.p3.bit n = w.machine.peripherals.outside.p3.bit n
  otherPorts : v.machine.peripherals.outside =
    { w.machine.peripherals.outside with p3 := v.machine.peripherals.outside.p3 }
  latches : v.machine.peripherals.latches = w.machine.peripherals.latches
  /-- The registers of the processor and the internal memory. -/
  core : v.machine.core = w.machine.core
  ram : v.machine.external.ram = w.machine.external.ram
  code : v.machine.code = w.machine.code
  /-- Nor is anything else of the machine different. -/
  machine : v.machine = w.machine.keysUp

theorem KeysUp.of_machine {w v : Workbench Dsm51} (held : ∀ key, v.keys.isHeld key = false)
    (machine : v.machine = w.machine.keysUp) : w.KeysUp v where
  held := held
  cskb0 := by rw [machine]; rfl
  cskb1 := by rw [machine]; rfl
  line := by
    rw [machine]
    exact (Byte.bit_setBit _ 5 5 false).trans (if_pos rfl)
  otherPins n other := by
    rw [machine]
    exact (Byte.bit_setBit _ n 5 false).trans (if_neg other)
  otherPorts := by rw [machine]; rfl
  latches := by rw [machine]; rfl
  core := by rw [machine]; rfl
  ram := by rw [machine]; rfl
  code := by rw [machine]; rfl
  machine := machine

/-- Where a release anywhere counts, it releases all held keys. -/
theorem releaseAllKeys_anywhere {M : Type} [Machine M] {w : Workbench M}
    (anywhere : w.keys.mode = .global) :
    (∀ key, w.releaseAllKeys.bench.keys.isHeld key = false) ∧
      w.releaseAllKeys.bench.machine = w.keys.keys.foldl (HeldKeys.drive · · false) w.machine := by
  unfold releaseAllKeys HeldKeys.releaseAll
  rw [anywhere]
  cases held : w.keys.keys with
  | nil =>
    refine ⟨fun key => ?_, rfl⟩
    show w.keys.keys.contains key = false
    rw [held]
    rfl
  | cons key keys => exact ⟨fun _ => rfl, rfl⟩

section

variable (format : ImageFormat) (lister : Lister) (s : Settings) (script : Script)

theorem settled_after : ((new (Dsm51.new format) lister s).after script).machine.Settled :=
  Dsm51.keysKeep_settled.after _ (Dsm51.settled_new format) script

theorem keysUp_releaseAllKeys (anywhere : s.effectiveKeyRelease = .global) :
    ((new (Dsm51.new format) lister s).after script).KeysUp
      ((new (Dsm51.new format) lister s).after script).releaseAllKeys.bench := by
  have mode := (sameSettings_after (new (Dsm51.new format) lister s) script).keyRelease
  obtain ⟨held, machine⟩ := releaseAllKeys_anywhere (mode.trans anywhere)
  refine .of_machine held (machine.trans ?_)
  exact Dsm51.foldl_drive_eq_keysUp (settled_after format lister s script)
    fun _ => exists_held_of_level format lister s script

/-- A key that is released before all of them are makes no difference. -/
theorem keysUp_releaseKey (anywhere : s.effectiveKeyRelease = .global) (key : Key) :
    ((new (Dsm51.new format) lister s).after script).KeysUp
      (((new (Dsm51.new format) lister s).after script).releaseKey
        key).bench.releaseAllKeys.bench := by
  have mode := (sameSettings_after (new (Dsm51.new format) lister s) script).keyRelease
  have noticed : ((new (Dsm51.new format) lister s).after script).releaseKey key = _ :=
    releaseKey_noticed (.inl (mode.trans anywhere))
  have released := keysUp_releaseAllKeys format lister s
    (script ++ [(0, .command (.releaseKey key))]) anywhere
  rw [after_concat] at released
  refine .of_machine released.held (released.machine.trans ?_)
  have driven := ((settled_after format lister s script).driveKey key false).1
  have machine : (((new (Dsm51.new format) lister s).after script).releaseKey key).bench.machine =
      ((new (Dsm51.new format) lister s).after script).machine.drive key.bit false := by
    rw [noticed, ← driven]
    rfl
  exact (congrArg Dsm51.keysUp machine).trans (Dsm51.keysUp_driveKey _ key false)

end

/-- **No key gets stuck.**  Where a release anywhere counts and whatever was asked for before, once
the pointer has been released, be it by a command or as an event anywhere on the screen, no key is
held, both key banks read zero and the line of the sequential keyboard is low.  All else of the
machine is as it was. -/
theorem no_stuck_keys_after_new [Geometry] (format : ImageFormat) (lister : Lister) (s : Settings)
    (anywhere : s.effectiveKeyRelease = .global) (script : Script) (now : Nat) :
    let w := (new (Dsm51.new format) lister s).after script
    w.KeysUp (w.apply now .releasePointer).bench ∧
      ∀ (t : Terminal) (x y : UInt16),
        w.KeysUp (t.handle w now (.pointer (.up .left) x y)).2.bench := by
  intro w
  refine ⟨keysUp_releaseAllKeys format lister s script anywhere, fun t x y => ?_⟩
  show w.KeysUp (t.applyAll w now
    (((KeyCap.at? t.caps x y).map Command.releaseKey).toList ++ [.releasePointer])).2.bench
  cases KeyCap.at? t.caps x y with
  | none => exact keysUp_releaseAllKeys format lister s script anywhere
  | some key => exact keysUp_releaseKey format lister s script anywhere key

/-- A key of each keyboard is pressed. -/
def oneOfEach : Script :=
  [(0, .command (.pressKey (.sequential .enter))), (0, .command (.pressKey (.matrix (.digit 3))))]

theorem announced_oneOfEach {w : Workbench Dsm51}
    (columns : w.machine.external.devices.csds = 0x03) :
    w.announced oneOfEach = [.keyPressed (.sequential .enter), .keyPressed (.matrix (.digit 3))] := by
  have enter : HeldKeys.listening w.machine (.sequential .enter) = true := by
    show w.machine.external.devices.csds.bit 0 = true
    rw [columns]
    decide
  obtain ⟨w₁, -, first⟩ := announced_press enter 0 (oneOfEach.drop 1)
  have digit : HeldKeys.listening w₁.machine (.matrix (.digit 3)) = true := rfl
  obtain ⟨w₂, -, second⟩ := announced_press digit 0 []
  rw [show w.announced oneOfEach = _ from first, show w₁.announced (oneOfEach.drop 1) = _ from second]
  rfl

/-- A key of each keyboard is down, and on the screen nothing has been drawn yet. -/
theorem no_stuck_keys_after_new_two :
    let w := (new (Dsm51.new .binary) (Dsm51.lister .binary) {}).after
      (((0, .command (.load columnsProgram)) :: steps 3) ++ oneOfEach)
    ({} : Settings).effectiveKeyRelease = .global ∧
      w.machine.level Key.sequentialLine = true ∧
      w.machine.level (Key.matrix (.digit 3)).bit = true ∧
      w.KeysUp (w.apply 1 .releasePointer).bench ∧
      w.KeysUp (({} : Terminal).handle w 1 (.pointer (.up .left) 0 0)).2.bench := by
  intro w
  obtain ⟨applied, event⟩ := no_stuck_keys_after_new .binary (Dsm51.lister .binary) {} rfl
    (((0, .command (.load columnsProgram)) :: steps 3) ++ oneOfEach) 1
  have announced := announced_oneOfEach csds_after_columns
  have run : w = ((new (Dsm51.new .binary) (Dsm51.lister .binary) {}).after
      ((0, .command (.load columnsProgram)) :: steps 3)).after oneOfEach := after_append _ _ _
  have line : w.machine.level Key.sequentialLine = true := by
    rw [run, line_after, announced]
    generalize (new (Dsm51.new .binary) (Dsm51.lister .binary) {}).after
      ((0, .command (.load columnsProgram)) :: steps 3) = before
    rfl
  have digit : w.machine.level (Key.matrix (.digit 3)).bit = true := by
    rw [run, level_after, announced]
    generalize (new (Dsm51.new .binary) (Dsm51.lister .binary) {}).after
      ((0, .command (.load columnsProgram)) :: steps 3) = before
    rfl
  exact ⟨rfl, line, digit, applied, event {} 0 0⟩

end Workbench

end Trainer51
