import Trainer51.Proofs.Chip.Flow

/-!
# What a program can do beyond its core

The core reaches external memory and the registers beside its own over two buses, and all it can do
there is to write.  So what no write over a bus breaks, no program breaks, whatever its steps
execute and whether or not they fail.

    BusesKeep p → p c.external c.registers → the same after c.execute code i        (execute)
    BusesKeep p → p c.external c.registers → the same after c.step code             (step)
    taking an interrupt writes at most a cleared request               (registers_takeInterrupt)
-/

namespace Trainer51

/-- No write over a bus breaks `p`. -/
structure BusesKeep {X P : Type} [ExternalBus X] [RegisterBus P] (p : X → P → Prop) : Prop where
  external : ∀ x r a v, p x r → p (ExternalBus.write x a v) r
  register : ∀ x r a v, p x r → p x (RegisterBus.write r a v)

namespace Chip

variable {X P : Type}

/-- What the core is wired to has a property. -/
def Wired (p : X → P → Prop) (c : Chip X P) : Prop := p c.external c.registers

variable [RegisterBus P]

/-! ## Interrupts -/

theorem external_acknowledge (c : Chip X P) (i : Interrupt) :
    (c.acknowledge i).external = c.external := by
  unfold acknowledge
  dsimp only
  split <;> rfl

theorem registers_acknowledge (c : Chip X P) (i : Interrupt) :
    (c.acknowledge i).registers = c.registers ∨
      ∃ n, i.acknowledged? (RegisterBus.read c.registers Sfr.tcon) = some n ∧
        (c.acknowledge i).registers =
          RegisterBus.write c.registers Sfr.tcon
            ((RegisterBus.read c.registers Sfr.tcon).setBit n false) := by
  unfold acknowledge
  dsimp only
  split
  · next n h => exact .inr ⟨n, h, rfl⟩
  · exact .inl rfl

theorem external_takeInterrupt (c : Chip X P) : c.takeInterrupt.1.external = c.external := by
  cases h : c.entry? with
  | none =>
    rw [takeInterrupt_of_no_entry h]
    rfl
  | some entry =>
    rw [takeInterrupt_of_entry h]
    exact external_acknowledge (c.mapCore ({ · with hold := false })) entry.1

/-- A step that takes an interrupt clears its request; otherwise no register changes before the
instruction. -/
theorem registers_takeInterrupt (c : Chip X P) :
    c.takeInterrupt.1.registers = c.registers ∨
      ∃ i n, Interrupt.acknowledged? i (RegisterBus.read c.registers Sfr.tcon) = some n ∧
        c.takeInterrupt.1.registers =
          RegisterBus.write c.registers Sfr.tcon
            ((RegisterBus.read c.registers Sfr.tcon).setBit n false) := by
  cases h : c.entry? with
  | none =>
    rw [takeInterrupt_of_no_entry h]
    exact .inl rfl
  | some entry =>
    rw [takeInterrupt_of_entry h]
    have acknowledged := registers_acknowledge (c.mapCore ({ · with hold := false })) entry.1
    exact acknowledged.imp id fun ⟨n, cleared⟩ => ⟨entry.1, n, cleared⟩

end Chip

namespace BusesKeep

open Chip (Wired)

variable {X P : Type} [ExternalBus X] [RegisterBus P] {p : X → P → Prop} (keeps : BusesKeep p)
  {c : Chip X P}

include keeps

/-! ## Writes -/

theorem writeSfr (h : c.Wired p) (a v : Byte) : (c.writeSfr a v).Wired p := by
  unfold Chip.writeSfr
  split
  · exact h
  · exact keeps.register _ _ _ _ h

theorem writeDirect (h : c.Wired p) (a v : Byte) : (c.writeDirect a v).Wired p := by
  unfold Chip.writeDirect
  split
  · exact h
  · exact keeps.writeSfr h a v

theorem writeBit (h : c.Wired p) (bit : Byte) (on : Bool) : (c.writeBit bit on).Wired p :=
  keeps.writeDirect h _ _

theorem write (h : c.Wired p) (operand : Operand) (v : Byte) : (c.write operand v).Wired p := by
  cases operand with
  | direct address => exact keeps.writeDirect h address v
  | _ => exact h

/-! ## Execution -/

theorem execute (code : Word → Byte) (h : c.Wired p) (i : Instruction) :
    (c.execute code i).Wired p := by
  cases i with
  | jumpClearBit bit target =>
    show (if c.readBitLatch bit then (c.writeBit bit false).mapCore (·.jump target)
      else c).Wired p
    split
    · exact keeps.writeBit h bit false
    · exact h
  | decrementJump operand target => exact keeps.write h operand _
  | combine op address source => exact keeps.writeDirect h address _
  | increment operand | decrement operand => exact keeps.write h operand _
  | move target source => exact keeps.write h target _
  | writeExternal pointer => exact keeps.external _ _ _ _ h
  | pop address => exact keeps.writeDirect (c := { c with core := c.core.pop.2 }) h address _
  | exchange operand => exact keeps.write (keeps.write h operand _) .accumulator _
  | moveFromCarry bit | clearBit bit | setBit bit | complementBit bit =>
    exact keeps.writeBit h bit _
  | _ => exact h

theorem executeNext (code : Word → Byte) (h : c.Wired p) : (c.executeNext code).1.Wired p := by
  unfold Chip.executeNext
  dsimp only
  split
  · exact h
  · exact keeps.execute code (c := c.mapCore _) h _

theorem takeInterrupt (h : c.Wired p) : c.takeInterrupt.1.Wired p := by
  unfold Wired
  rw [c.external_takeInterrupt]
  obtain same | ⟨i, n, -, written⟩ := c.registers_takeInterrupt
  · rw [same]
    exact h
  · rw [written]
    exact keeps.register _ _ _ _ h

/-- What no write over a bus breaks, no step breaks. -/
theorem step (code : Word → Byte) (h : c.Wired p) : (c.step code).1.Wired p :=
  keeps.executeNext code (keeps.takeInterrupt h)

end BusesKeep

end Trainer51
