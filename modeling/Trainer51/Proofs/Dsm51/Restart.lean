import Trainer51.Proofs.Dsm51.Operations

/-!
# A reset is a clean restart

A reset leaves of a board what does not belong to its past: the code, the key banks and the levels
that the outside drives.  The board is then one that has just been switched on and has been given
these, so no two histories that end with the same code and the same inputs can be told apart.

    d.clearWorking = ((new d.format).supplied d).resampled                (clearWorking_eq)
    code and inputs can be given to a new board by the operations of the board   (after_supply)
    a reset after any history                                             (clean_restart)
-/

namespace Trainer51

/-! ## Bits and bytes, one by one -/

/-- A byte whose bits are written one after the other is the byte that they are taken from. -/
theorem Byte.foldl_setBit (a b : Byte) :
    (List.range 8).foldl (fun acc n => acc.setBit n (b.bit n)) a = b := by
  refine ext_bits fun n => ?_
  have position := Nat.mod_lt n (show 0 < 8 by decide)
  rw [← bit_mod, ← bit_mod b]
  generalize n % 8 = m at position
  have range : List.range 8 = [0, 1, 2, 3, 4, 5, 6, 7] := rfl
  simp only [range, List.foldl_cons, List.foldl_nil, bit_setBit]
  obtain rfl | rfl | rfl | rfl | rfl | rfl | rfl | rfl :
      m = 0 ∨ m = 1 ∨ m = 2 ∨ m = 3 ∨ m = 4 ∨ m = 5 ∨ m = 6 ∨ m = 7 := by omega
  all_goals rfl

/-- A store whose cells are written from the first to the last is the one they are taken from. -/
theorem Store64K.writeAll_toList {α : Type} (m n : Store64K α) : m.writeAll 0 n.toList = n := by
  refine ext_read fun a => ?_
  have inside : a.toNat < 0x10000 := a.toNat_lt
  rw [read_writeAll m 0 a n.toList (by simp), UInt16.sub_zero]
  simp [read, inside]

namespace Dsm51

/-! ## What survives a reset -/

/-- A board with the code, the key banks and the outside levels of another one. -/
def supplied (d other : Dsm51) : Dsm51 :=
  { d with
    code := other.code
    chip := { d.chip with
      external := { d.external with
        devices := { d.external.devices with
          cskb0 := other.external.devices.cskb0
          cskb1 := other.external.devices.cskb1 } }
      registers := { d.peripherals with outside := other.peripherals.outside } } }

/-- A board that takes its pins as they are for those of the last instruction. -/
def resampled (d : Dsm51) : Dsm51 := { d with lastP3 := d.peripherals.pins .p3 }

theorem clearWorking_eq (d : Dsm51) :
    d.clearWorking = ((new d.format).supplied d).resampled := rfl

/-- Two boards with the same code and the same inputs. -/
structure SameSupply (d d' : Dsm51) : Prop where
  code : d.code = d'.code
  cskb0 : d.external.devices.cskb0 = d'.external.devices.cskb0
  cskb1 : d.external.devices.cskb1 = d'.external.devices.cskb1
  outside : d.peripherals.outside = d'.peripherals.outside

theorem SameSupply.supplied_eq {d d' : Dsm51} (h : d.SameSupply d') (b : Dsm51) :
    b.supplied d = b.supplied d' := by
  unfold supplied
  rw [h.code, h.cskb0, h.cskb1, h.outside]

/-! ## Giving it to a new board -/

/-- The byte of an input register. -/
def input (d : Dsm51) : InputRegister → Byte
  | .cskb0 => d.external.devices.cskb0
  | .cskb1 => d.external.devices.cskb1
  | .port3 => d.peripherals.outside.p3

def setInput (d : Dsm51) (b : Byte) : InputRegister → Dsm51
  | .cskb0 =>
    let devices := { d.external.devices with cskb0 := b }
    { d with chip := { d.chip with external := { d.external with devices } } }
  | .cskb1 =>
    let devices := { d.external.devices with cskb1 := b }
    { d with chip := { d.chip with external := { d.external with devices } } }
  | .port3 =>
    let outside := { d.peripherals.outside with p3 := b }
    d.setPeripherals { d.peripherals with outside }

theorem drive_eq (d : Dsm51) (register : InputRegister) (n : Nat) (on : Bool) :
    d.drive ⟨register, n⟩ on = d.setInput ((d.input register).setBit n on) register := by
  cases register <;> rfl

/-- Drive an input register to the bits of a byte. -/
def driveByte (register : InputRegister) (b : Byte) : List BoardOperation :=
  (List.range 8).map fun n => .drive ⟨register, n⟩ (b.bit n)

theorem after_driveByte (d : Dsm51) (register : InputRegister) (b : Byte) :
    d.after (driveByte register b) = d.setInput b register := by
  have bits (ns : List Nat) (d : Dsm51) :
      d.after (ns.map fun n => .drive ⟨register, n⟩ (b.bit n)) =
        d.setInput (ns.foldl (fun acc n => acc.setBit n (b.bit n)) (d.input register))
          register := by
    induction ns generalizing d with
    | nil => cases register <;> rfl
    | cons n ns ih =>
      refine (ih (d.drive ⟨register, n⟩ (b.bit n))).trans ?_
      rw [drive_eq]
      cases register <;> rfl
  refine (bits (List.range 8) d).trans ?_
  rw [Byte.foldl_setBit]

/-- What gives another board the code and the inputs of this one. -/
def supply (d : Dsm51) : List BoardOperation :=
  .writeCode 0 d.code.toList ::
    (driveByte .cskb0 d.external.devices.cskb0 ++ driveByte .cskb1 d.external.devices.cskb1 ++
      driveByte .port3 d.peripherals.outside.p3)

theorem after_supply {format : ImageFormat} {d : Dsm51} (h : d.AsBuilt format) :
    (new d.format).after d.supply = (new d.format).supplied d := by
  rw [supply, after_cons, after_append, after_append, after_driveByte, after_driveByte,
    after_driveByte, perform]
  unfold writeCode supplied
  rw [Store64K.writeAll_toList, h.outside]
  rfl

/-! ## After any history -/

/-- **A reset is a clean restart.**  After any history a reset leaves the board that comes of a new
one when it is given the same code and the same inputs, and its pins as they then are for those of
the last instruction.  Nothing of the code or the inputs is lost, and two histories that end with
the same code and the same inputs are the same from the reset on. -/
theorem clean_restart (format : ImageFormat) (history : List BoardOperation) :
    let used := (new format).after history
    used.clearWorking = ((new format).supplied used).resampled ∧
      (new format).after used.supply = (new format).supplied used ∧
      used.clearWorking.SameSupply used ∧
      ∀ other later : List BoardOperation, ((new format).after other).SameSupply used →
        (new format).after (other ++ .clearWorking :: later) =
          (new format).after (history ++ .clearWorking :: later) := by
  intro used
  have built : used.AsBuilt format := asBuilt_after format history
  have restarted : used.clearWorking = ((new format).supplied used).resampled := by
    rw [clearWorking_eq, built.format]
  refine ⟨restarted, ?_, ⟨rfl, rfl, rfl, rfl⟩, ?_⟩
  · have supplied := after_supply built
    rwa [built.format] at supplied
  · intro other later same
    have built' := asBuilt_after format other
    rw [after_append, after_append, after_cons, after_cons, perform, perform, restarted,
      clearWorking_eq, built'.format, same.supplied_eq]

end Dsm51

end Trainer51
