import Trainer51.Proofs.Chip.Hold
import Trainer51.Proofs.Dsm51.RegisterSpace

/-!
# Bit instructions change one bit

An instruction that writes a bit writes back the whole byte that holds it.  It takes the byte as the
RAM or the latch has it, so the other seven bits stay as they are and the pins do not count.  The
parity, which follows the accumulator after every instruction, is written as a bit as well.

    ((c.writeBit bit on).readLatch a).bit n is on at the bit, and as before elsewhere
                                                                        (bit_readLatch_writeBit)
    c.bitWritten? i = some (bit, on) → executing i writes the bit and perhaps jumps
                                                                         (execute_of_bitWritten)
    the bit written, a jump, and the parity are all that changes          (changesBit_writeBit)
-/

namespace Trainer51

namespace Chip

/-- The bits below 80h are in RAM from 20h on, eight to a byte; those above are in the registers at
multiples of eight. -/
theorem toNat_bitByte (bit : Byte) :
    (bitByte bit).toNat = if bit < 0x80 then 0x20 + bit.toNat / 8 else bit.toNat / 8 * 8 := by
  let p (bit : Byte) : Prop :=
    (bitByte bit).toNat = if bit < 0x80 then 0x20 + bit.toNat / 8 else bit.toNat / 8 * 8
  have h : ∀ n, n < 256 → p (UInt8.ofNat n) := by
    decide +kernel
  exact Byte.forall_of_lt h bit

theorem bitByte_lt_iff (bit : Byte) : bitByte bit < 0x80 ↔ bit < 0x80 := by
  have byte := toNat_bitByte bit
  simp only [UInt8.lt_iff_toNat_lt, UInt8.reduceToNat] at byte ⊢
  split at byte <;> omega

section

variable {X P : Type} [RegisterBus P]

/-- The bit that an instruction writes, and what it writes there. -/
def bitWritten? (c : Chip X P) : Instruction → Option (Byte × Bool)
  | .clearBit bit => some (bit, false)
  | .setBit bit => some (bit, true)
  | .complementBit bit => some (bit, !c.readBitLatch bit)
  | .moveFromCarry bit => some (bit, c.core.carry)
  | .jumpClearBit bit _ => if c.readBitLatch bit then some (bit, false) else none
  | _ => none

/-- What an instruction writes to a bit does not depend on where it is. -/
theorem bitWritten?_jump (c : Chip X P) (w : Word) (i : Instruction) :
    (c.mapCore (·.jump w)).bitWritten? i = c.bitWritten? i := by
  cases i <;> rfl

variable [ExternalBus X]

theorem execute_of_bitWritten (code : Word → Byte) {c : Chip X P} {i : Instruction} {bit : Byte}
    {on : Bool} (h : c.bitWritten? i = some (bit, on)) :
    ∃ target, c.execute code i = (c.writeBit bit on).mapCore (·.jump target) := by
  cases i with
  | jumpClearBit b target =>
    obtain ⟨set, same⟩ := Option.ite_none_right_eq_some.1 h
    cases same
    exact ⟨target, if_pos set⟩
  | clearBit | setBit | complementBit | moveFromCarry =>
    cases h
    exact ⟨(c.writeBit _ _).core.pc, rfl⟩
  | _ => cases h

end

variable (c : Chip ExternalData Peripherals)

/-- A bit has been written, and nothing else is changed but the program counter, the hold and the
parity. -/
structure ChangesBit (bit : Byte) (on : Bool) (c' : Chip ExternalData Peripherals) : Prop where
  ram : ∀ a n, (c'.core.readRam a).bit n =
    if bit < 0x80 ∧ a = bitByte bit ∧ n % 8 = bit.toNat % 8 then on else (c.core.readRam a).bit n
  /-- Registers and latches.  The parity is that of the accumulator, whatever has been written. -/
  register : ∀ a, 0x80 ≤ a → ∀ n, (c'.readLatch a).bit n =
    if a = CoreRegister.psw.address ∧ n % 8 = Psw.parity then c'.core.a.oddOnes
    else if a = bitByte bit ∧ n % 8 = bit.toNat % 8 then on
    else (c.readLatch a).bit n
  external : c'.external = c.external
  outside : c'.registers.outside = c.registers.outside
  inService : c'.core.inService = c.core.inService
  hold : c'.core.hold = true ↔ bitByte bit = Sfr.ie ∨ bitByte bit = Sfr.ip

/-! ## Writing a bit -/

theorem bit_readLatch_writeBit (bit : Byte) (on : Bool) (a : Byte) (n : Nat) :
    ((c.writeBit bit on).readLatch a).bit n =
      if a = bitByte bit ∧ n % 8 = bit.toNat % 8 then on else (c.readLatch a).bit n := by
  unfold writeBit
  rw [readLatch_writeDirect]
  by_cases same : bitByte bit = a
  · subst same
    simp only [if_true, true_and]
    exact Byte.bit_setBit _ _ _ _
  · have other : ¬(a = bitByte bit ∧ n % 8 = bit.toNat % 8) := fun h => same h.1.symm
    rw [if_neg same, if_neg other]

theorem bit_readRam_writeBit (bit : Byte) (on : Bool) (a : Byte) (n : Nat) :
    ((c.writeBit bit on).core.readRam a).bit n =
      if bit < 0x80 ∧ a = bitByte bit ∧ n % 8 = bit.toNat % 8 then on
      else (c.core.readRam a).bit n := by
  unfold writeBit
  rw [readRam_writeDirect]
  by_cases there : bitByte bit < 0x80 ∧ bitByte bit = a
  · obtain ⟨ram, rfl⟩ := there
    rw [if_pos ⟨ram, rfl⟩, c.readLatch_of_lt ram, Byte.bit_setBit]
    simp only [(bitByte_lt_iff bit).1 ram, true_and]
  · have other : ¬(bit < 0x80 ∧ a = bitByte bit ∧ n % 8 = bit.toNat % 8) :=
      fun h => there ⟨(bitByte_lt_iff bit).2 h.1, h.2.1.symm⟩
    rw [if_neg there, if_neg other]

theorem hold_writeBit (bit : Byte) (on : Bool) :
    (c.writeBit bit on).core.hold = true ↔
      c.core.hold = true ∨ bitByte bit = Sfr.ie ∨ bitByte bit = Sfr.ip := by
  have stored := (c.stored_writeBit bit on).hold
  simpa only [Option.some.injEq] using stored

theorem external_writeBit (bit : Byte) (on : Bool) :
    (c.writeBit bit on).external = c.external := by
  unfold writeBit writeDirect
  split
  · rfl
  · exact c.external_writeSfr _ _

theorem outside_writeBit (bit : Byte) (on : Bool) :
    (c.writeBit bit on).registers.outside = c.registers.outside :=
  (Dsm51.busesKeep_outside c.registers.outside).writeBit (c := c) rfl bit on

/-- The parity is written after every instruction as a bit is. -/
theorem updateParity_eq_writeBit :
    c.mapCore Core.updateParity = c.writeBit CoreRegister.psw.address c.core.a.oddOnes := rfl

/-! ## Execution -/

/-- A bit is written, a jump is taken, and the parity follows. -/
theorem changesBit_writeBit (released : c.core.hold = false) (bit : Byte) (on : Bool)
    (target : Word) :
    c.ChangesBit bit on
      (((c.writeBit bit on).mapCore (·.jump target)).mapCore Core.updateParity) := by
  let written := (c.writeBit bit on).mapCore (·.jump target)
  have hold := c.hold_writeBit bit on
  have flow := c.flow_writeBit bit on
  rw [updateParity_eq_writeBit]
  constructor
  · intro a n
    rw [bit_readRam_writeBit, if_neg fun h => absurd h.1 (by decide)]
    exact c.bit_readRam_writeBit bit on a n
  · intro a h n
    rw [bit_readLatch_writeBit]
    show (if a = CoreRegister.psw.address ∧ n % 8 = Psw.parity then written.core.a.oddOnes
      else ((c.writeBit bit on).readLatch a).bit n) = _
    rw [bit_readLatch_writeBit]
    rfl
  · exact (written.external_writeBit _ _).trans (c.external_writeBit bit on)
  · exact (written.outside_writeBit _ _).trans (c.outside_writeBit bit on)
  · have parity := written.flow_writeBit CoreRegister.psw.address written.core.a.oddOnes
    exact (congrArg Flow.inService parity).trans (congrArg Flow.inService flow)
  · have parity : ¬(bitByte CoreRegister.psw.address = Sfr.ie ∨
        bitByte CoreRegister.psw.address = Sfr.ip) := by decide
    rw [hold_writeBit, or_iff_left parity]
    refine hold.trans ?_
    rw [released]
    exact or_iff_right Bool.false_ne_true

/-- Where the instruction is does not count. -/
theorem ChangesBit.of_jump {c c' : Chip ExternalData Peripherals} {w : Word} {bit : Byte}
    {on : Bool} (h : (c.mapCore (·.jump w)).ChangesBit bit on c') : c.ChangesBit bit on c' := by
  refine ⟨h.ram, fun a ha n => ?_, h.external, h.outside, h.inService, h.hold⟩
  exact h.register a ha n

theorem ChangesBit.of_released {c c' : Chip ExternalData Peripherals} {bit : Byte} {on : Bool}
    (h : (c.mapCore ({ · with hold := false })).ChangesBit bit on c') : c.ChangesBit bit on c' :=
  ⟨h.ram, h.register, h.external, h.outside, h.inService, h.hold⟩

/-- **A bit instruction changes one bit.**  Whether it clears, sets or complements a bit, moves the
carry into it or jumps on it and clears it, the bit takes the value that the instruction says, a
complement being that of the RAM or the latch.  Every other bit of RAM and of the registers and
latches, external memory and the services in progress stay as they are, whatever the pins read; only
the parity follows the accumulator, the hold is set by a bit of the enable or the priority register,
and the instruction counter goes on. -/
theorem bit_instruction_changes {code : Word → Byte} {c : Chip ExternalData Peripherals}
    {bit : Byte} {on : Bool} (h : c.takeInterrupt.1.bitWritten? (c.upcoming code) = some (bit, on)) :
    ∃ c' cycles, c.step code = (c', .ok cycles) ∧ c.takeInterrupt.1.ChangesBit bit on c' ∧
      ∀ _ : c.entry? = none, c.ChangesBit bit on c' := by
  let entered := c.takeInterrupt.1
  let next := (Fetch.ofCode code entered.core.pc).next
  have meaning : c.upcoming code ≠ .reserved := by
    intro reserved
    rw [reserved] at h
    cases h
  obtain ⟨target, executed⟩ := execute_of_bitWritten code
    ((entered.bitWritten?_jump next _).trans h)
  have changes : entered.ChangesBit bit on
      (((entered.mapCore (·.jump next)).execute code (c.upcoming code)).mapCore
        Core.updateParity) := by
    have jumped := changesBit_writeBit (entered.mapCore (·.jump next)) c.hold_takeInterrupt bit on
      target
    rw [executed]
    exact jumped.of_jump
  refine ⟨_, _, step_of_ne_reserved meaning, changes, fun none => ?_⟩
  have released : entered = c.mapCore ({ · with hold := false }) :=
    congrArg Prod.fst (takeInterrupt_of_no_entry none)
  refine ChangesBit.of_released ?_
  rw [← released]
  exact changes

/-- A port whose pin 1 is pulled low, while its latch is high. -/
def pulledChip : Chip ExternalData Peripherals :=
  ⟨{}, {}, { outside := { PortBytes.uniform 0xFF with p1 := 0xFD } }⟩

/-- Complements bit 0 of port 1. -/
def complementPort (a : Word) : Byte := [0xB2, 0x90].getD a.toNat 0

/-- The low pin is not written back. -/
theorem bit_instruction_changes_p1 :
    pulledChip.takeInterrupt.1.bitWritten? (pulledChip.upcoming complementPort) =
        some (0x90, false) ∧
      (pulledChip.readSfr 0x90).bit 1 = false ∧
      ∃ c' cycles, pulledChip.step complementPort = (c', .ok cycles) ∧
        (c'.readLatch 0x90).bit 0 = false ∧ (c'.readLatch 0x90).bit 1 = true := by
  have written : pulledChip.takeInterrupt.1.bitWritten? (pulledChip.upcoming complementPort) =
      some (0x90, false) := by decide +kernel
  obtain ⟨c', cycles, stepped, -, changes⟩ := bit_instruction_changes written
  have register := (changes (by decide +kernel)).register 0x90 (by decide)
  refine ⟨written, by decide +kernel, c', cycles, stepped, ?_, ?_⟩
  · exact register 0
  · exact (register 1).trans (show (pulledChip.readLatch 0x90).bit 1 = true by decide +kernel)

end Chip

end Trainer51
