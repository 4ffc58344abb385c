import Trainer51.Dsm51
import Trainer51.Proofs.Chip.Flow
import Trainer51.Proofs.Instruction.OwnBytes
import Trainer51.Proofs.Listing.Lookup

/-!
# What a step reads of code memory

A fetch takes three bytes, but an instruction is as long as its opcode says.  Of the bytes behind it
a step reads at most the one that a table look-up fetches, so what follows an instruction has no
influence on what the step does or on what the listing prints.

    SameInstruction code code' a → both decode to the same instruction at a         (decode_ofCode)
    code memories that agree on what a step reads give the same step                   (step_congr)
    a listed instruction has the text of any code memory that holds its bytes   (Listed.text_eq)
-/

namespace Trainer51

/-- Both code memories have the same instruction at an address: they agree on its bytes, of which
the opcode says how many there are. -/
def SameInstruction (code code' : Word → Byte) (a : Word) : Prop :=
  ∀ i < opcodeLength (code a), code (a + UInt16.ofNat i) = code' (a + UInt16.ofNat i)

/-- A code memory holds bytes from an address on. -/
def Holds (code : Word → Byte) (a : Word) (bytes : List Byte) : Prop :=
  ∀ i b, bytes[i]? = some b → code (a + UInt16.ofNat i) = b

/-! ## Decoding -/

theorem SameInstruction.opcode {code code' : Word → Byte} {a : Word}
    (h : SameInstruction code code' a) : code a = code' a := by
  have first := h 0 (opcodeLength_bounds (code a)).1
  have zero : a + UInt16.ofNat 0 = a := UInt16.add_zero a
  rwa [zero] at first

theorem SameInstruction.decode_ofCode {code code' : Word → Byte} {a : Word}
    (h : SameInstruction code code' a) :
    (Fetch.ofCode code a).decode = (Fetch.ofCode code' a).decode := by
  have length : (Fetch.ofCode code a).length = opcodeLength (code a) := Fetch.length_eq _
  refine Fetch.decode_congr ⟨rfl, h.opcode, fun two => ?_, fun three => ?_⟩
  · exact h 1 (length ▸ two)
  · exact h 2 (length ▸ three)

/-- The missing bytes of a short instruction are read as zero, and do not show. -/
theorem Fetch.decode_ofBytes {code : Word → Byte} {a : Word} {bytes : List Byte}
    (whole : bytes.length = opcodeLength (bytes.headD 0)) (h : Holds code a bytes) :
    (Fetch.ofBytes a bytes).decode = (Fetch.ofCode code a).decode ∧
      (Fetch.ofBytes a bytes).length = bytes.length := by
  have first : (Fetch.ofBytes a bytes).opcode = bytes.headD 0 := by
    cases bytes <;> rfl
  have length : (Fetch.ofBytes a bytes).length = bytes.length := by
    rw [Fetch.length_eq, first, whole]
  have read {i : Nat} (hi : i < bytes.length) : bytes.getD i 0 = code (a + UInt16.ofNat i) := by
    have cell := List.getElem?_eq_getElem hi
    rw [h i _ cell, List.getD_eq_getElem?_getD, cell]
    rfl
  have pos : 0 < bytes.length := whole ▸ (opcodeLength_bounds _).1
  have opcode : bytes.getD 0 0 = code a := by
    have zero : a + UInt16.ofNat 0 = a := UInt16.add_zero a
    have first := read pos
    rwa [zero] at first
  refine ⟨Fetch.decode_congr ⟨rfl, opcode, fun two => ?_, fun three => ?_⟩, length⟩
  · exact read (length ▸ two)
  · exact read (length ▸ three)

/-- A listed row is a byte of data, or an instruction that has the row's text whatever follows it. -/
theorem Row.Listed.text_eq {row : Row} (h : row.Listed) :
    (∃ b, row = .ofData row.address b) ∨
      ∀ code, Holds code row.address row.bytes →
        row.text = (Fetch.ofCode code row.address).decode.text ∧
          row.bytes.length = (Fetch.ofCode code row.address).length := by
  cases h with
  | data address b => exact .inl ⟨b, rfl⟩
  | instruction address bytes whole =>
    refine .inr fun code held => ?_
    obtain ⟨decode, length⟩ := Fetch.decode_ofBytes whole held
    refine ⟨congrArg Instruction.text decode, length.symm.trans ?_⟩
    exact congrArg Instruction.length decode

/-! ## One step -/

namespace Chip

variable {X P : Type} [RegisterBus P]

/-- Where the next step fetches its instruction: at the vector of the interrupt that it takes, or at
the program counter. -/
def origin (c : Chip X P) : Word := (c.entry?.map (·.1.vector)).getD c.core.pc

/-- The byte of code memory that the next step reads as data if its instruction is `i`. -/
def lookup? (c : Chip X P) : Instruction → Option Word
  | .readCodeAtPc => some (c.origin + 1 + c.core.a.toUInt16)
  | .readCodeAtDptr => some (c.core.dptr + c.core.a.toUInt16)
  | _ => none

theorem pc_takeInterrupt_eq_origin (c : Chip X P) : c.takeInterrupt.1.core.pc = c.origin := by
  have flow := congrArg Flow.pc c.flow_takeInterrupt
  unfold origin
  refine Eq.trans flow ?_
  cases c.entry? <;> rfl

/-- Entering an interrupt uses neither the accumulator nor the data pointer. -/
theorem takeInterrupt_keeps (c : Chip X P) :
    c.takeInterrupt.1.core.a = c.core.a ∧ c.takeInterrupt.1.core.dptr = c.core.dptr := by
  cases h : c.entry? with
  | none =>
    rw [takeInterrupt_of_no_entry h]
    exact ⟨rfl, rfl⟩
  | some entry =>
    rw [takeInterrupt_of_entry h, core_enter]
    exact ⟨rfl, rfl⟩

variable [ExternalBus X]

/-- Only a table look-up reads code memory while it executes. -/
theorem execute_congr {code code' : Word → Byte} {c : Chip X P} {i : Instruction}
    (pc : i = .readCodeAtPc →
      code (c.core.pc + c.core.a.toUInt16) = code' (c.core.pc + c.core.a.toUInt16))
    (dptr : i = .readCodeAtDptr →
      code (c.core.dptr + c.core.a.toUInt16) = code' (c.core.dptr + c.core.a.toUInt16)) :
    c.execute code i = c.execute code' i := by
  cases i with
  | readCodeAtPc => exact congrArg (c.write .accumulator) (pc rfl)
  | readCodeAtDptr => exact congrArg (c.write .accumulator) (dptr rfl)
  | _ => rfl

/-- Two code memories that agree on the next instruction and on the byte that it looks up. -/
structure AlikeFor (c : Chip X P) (code code' : Word → Byte) : Prop where
  own : SameInstruction code code' c.origin
  lookup : ∀ a, c.lookup? (Fetch.ofCode code c.origin).decode = some a → code a = code' a

theorem executeNext_congr {code code' : Word → Byte} {c : Chip X P} (h : c.AlikeFor code code') :
    c.takeInterrupt.1.executeNext code = c.takeInterrupt.1.executeNext code' := by
  let entered := c.takeInterrupt.1
  have pc : entered.core.pc = c.origin := c.pc_takeInterrupt_eq_origin
  obtain ⟨a, dptr⟩ := c.takeInterrupt_keeps
  let fetch := Fetch.ofCode code entered.core.pc
  let fetch' := Fetch.ofCode code' entered.core.pc
  have own := h.own
  have lookup := h.lookup
  unfold lookup? at lookup
  rw [← pc, ← a, ← dptr] at lookup
  rw [← pc] at own
  have decode : fetch.decode = fetch'.decode := own.decode_ofCode
  by_cases reserved : fetch.decode = .reserved
  · have reserved' : fetch'.decode = .reserved := decode ▸ reserved
    rw [executeNext_of_reserved reserved, executeNext_of_reserved reserved', own.opcode]
  · have reserved' : fetch'.decode ≠ .reserved := decode ▸ reserved
    have next : fetch.next = fetch'.next :=
      congrArg (fun i : Instruction => entered.core.pc + UInt16.ofNat i.length) decode
    rw [executeNext_of_ne_reserved rfl reserved, executeNext_of_ne_reserved rfl reserved', ← decode,
      ← next]
    have executed : (entered.mapCore (·.jump fetch.next)).execute code fetch.decode =
        (entered.mapCore (·.jump fetch.next)).execute code' fetch.decode := by
      refine execute_congr (fun table => lookup _ ?_) (fun table => lookup _ ?_)
      · have behind : fetch.next = entered.core.pc + 1 :=
          congrArg (fun i : Instruction => entered.core.pc + UInt16.ofNat i.length) table
        rw [show (Fetch.ofCode code entered.core.pc).decode = _ from table, ← behind]
        rfl
      · rw [show (Fetch.ofCode code entered.core.pc).decode = _ from table]
        rfl
    rw [executed]

theorem step_congr {code code' : Word → Byte} {c : Chip X P} (h : c.AlikeFor code code') :
    c.step code = c.step code' := by
  unfold step
  dsimp only
  rw [executeNext_congr h]

end Chip

/-- **Only an instruction's own bytes matter.**  The text of an instruction is settled by as many
bytes as its opcode asks for.  So is what a step does, to the core, to external memory and to the
registers, its result and its time included, but for the one byte that a table look-up reads.  A
row of a listing is a byte of data or has the text of the instruction that any code memory with the
row's bytes holds there. -/
theorem own_bytes_matter :
    (∀ (code code' : Word → Byte) (a : Word), SameInstruction code code' a →
      (Fetch.ofCode code a).decode.text = (Fetch.ofCode code' a).decode.text) ∧
    (∀ (X P : Type) [ExternalBus X] [RegisterBus P] (c : Chip X P) (code code' : Word → Byte),
      c.AlikeFor code code' → c.step code = c.step code') ∧
    ∀ (image : Image), ∀ row ∈ image.rows, (∃ b, row = .ofData row.address b) ∨
      ∀ code, Holds code row.address row.bytes →
        row.text = (Fetch.ofCode code row.address).decode.text ∧
          row.bytes.length = (Fetch.ofCode code row.address).length := by
  refine ⟨fun code code' a same => ?_, fun X P _ _ c code code' => Chip.step_congr,
    fun image row listed => (image.rows_listed row listed).text_eq⟩
  exact congrArg Instruction.text same.decode_ofCode

/-- A chip about to enter the routine of timer 0. -/
def interruptedChip : Chip ExternalData Peripherals :=
  let registers := (({} : Peripherals).write Sfr.ie 0x82).write Sfr.tcon 0x20
  ⟨{ pc := 0x05, a := 0x02 }, {}, registers⟩

/-- A routine of timer 0 that looks up a byte of its own, with other bytes about it. -/
def lookupRoutine (other : Byte) (a : Word) : Byte :=
  if a = 0x0B then 0x83 else if a = 0x0E then 0x42 else other

theorem rows_truncated :
    (Image.empty.write 0 [0x74, 0x05, 0x02]).rows =
      [⟨0, [0x74, 0x05], "MOV A, #5"⟩, ⟨2, [0x02], "DB 2h"⟩] := by
  unfold Image.rows Image.runs
  rw [Image.toList_write_empty (by decide)]
  rfl

theorem own_bytes_matter_lookup :
    let code := lookupRoutine 0x00
    let code' := lookupRoutine 0xFF
    let row : Row := ⟨0, [0x74, 0x05], "MOV A, #5"⟩
    let held (a : Word) : Byte := [0x74, 0x05].getD a.toNat 0xFF
    interruptedChip.origin = 0x0B ∧ SameInstruction code code' 0x0B ∧ code 0x0C ≠ code' 0x0C ∧
      (Fetch.ofCode code 0x0B).decode.text = (Fetch.ofCode code' 0x0B).decode.text ∧
      interruptedChip.AlikeFor code code' ∧
      interruptedChip.step code = interruptedChip.step code' ∧
      row ∈ (Image.empty.write 0 [0x74, 0x05, 0x02]).rows ∧ Holds held 0 row.bytes ∧
      row.text = (Fetch.ofCode held 0).decode.text := by
  intro code code' row held
  obtain ⟨texts, steps, listed⟩ := own_bytes_matter
  have origin : interruptedChip.origin = 0x0B := by decide +kernel
  have same : SameInstruction code code' 0x0B := by
    intro i hi
    have length : opcodeLength (code 0x0B) = 1 := by decide
    obtain rfl : i = 0 := by omega
    rfl
  have alike : interruptedChip.AlikeFor code code' := by
    refine ⟨origin ▸ same, fun a h => ?_⟩
    rw [origin] at h
    have lookup : interruptedChip.lookup? (Fetch.ofCode code 0x0B).decode = some 0x0E := by
      decide +kernel
    obtain rfl := Option.some.inj (lookup.symm.trans h)
    rfl
  have hr : row ∈ (Image.empty.write 0 [0x74, 0x05, 0x02]).rows := by
    rw [rows_truncated]
    exact List.mem_cons_self
  have holds : Holds held 0 row.bytes := by
    intro i b hb
    obtain rfl | rfl : i = 0 ∨ i = 1 := by
      obtain ⟨h, -⟩ := List.getElem?_eq_some_iff.1 hb
      replace h : i < 2 := h
      omega
    · exact Option.some.inj hb
    · exact Option.some.inj hb
  refine ⟨origin, same, by decide, texts code code' 0x0B same, alike, steps _ _ _ _ _ alike, hr,
    holds, ?_⟩
  obtain ⟨b, data⟩ | shown := listed _ row hr
  · exact absurd (congrArg (·.bytes.length) data) (show ¬2 = 1 by decide)
  · exact (shown held holds).1

end Trainer51
