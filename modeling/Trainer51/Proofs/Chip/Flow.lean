import Trainer51.Chip.Execute

/-!
# How a program goes on

The program counter and the services in progress say how a program goes on.  An instruction changes
them only as a jump or as a return from an interrupt; whatever else it writes leaves both alone.

    (c.execute code i).core.flow = ⟨(c.target? i).getD c.core.pc, c.serviceAfter i⟩   (flow_execute)
    a step begins the service `c.entry?` and then executes one instruction
                                      (flow_takeInterrupt, flow_executeNext, step_of_no_entry)
-/

namespace Trainer51

/-- Where a program is, and what it has been interrupted for. -/
structure Flow where
  pc : Word
  inService : InService
  deriving DecidableEq, Repr

namespace Core

def flow (c : Core) : Flow := ⟨c.pc, c.inService⟩

/-! ## Writes that leave the flow alone -/

@[simp] theorem flow_set (c : Core) (r : CoreRegister) (v : Byte) : (c.set r v).flow = c.flow := by
  cases r <;> rfl

@[simp] theorem flow_setDptr (c : Core) (w : Word) : (c.setDptr w).flow = c.flow := rfl

@[simp] theorem flow_setFlag (c : Core) (n : Nat) (on : Bool) : (c.setFlag n on).flow = c.flow :=
  rfl

@[simp] theorem flow_setCarry (c : Core) (on : Bool) : (c.setCarry on).flow = c.flow := rfl

@[simp] theorem flow_updateParity (c : Core) : c.updateParity.flow = c.flow :=
  c.flow_setFlag _ _

@[simp] theorem flow_writeRam (c : Core) (a v : Byte) : (c.writeRam a v).flow = c.flow := rfl

@[simp] theorem flow_push (c : Core) (v : Byte) : (c.push v).flow = c.flow := rfl

@[simp] theorem flow_pop (c : Core) : c.pop.2.flow = c.flow := rfl

@[simp] theorem flow_exchangeNibble (c : Core) (a : Byte) : (c.exchangeNibble a).flow = c.flow :=
  rfl

@[simp] theorem flow_setPair (c : Core) (r : Byte × Byte × Bool) : (c.setPair r).flow = c.flow :=
  rfl

@[simp] theorem flow_setWithCarry (c : Core) (r : Byte × Bool) :
    (c.setWithCarry r).flow = c.flow := rfl

@[simp] theorem flow_accumulate (c : Core) (op : AccumulatorOp) (v : Byte) :
    (c.accumulate op v).flow = c.flow := by
  cases op <;> rfl

@[simp] theorem flow_rotate (c : Core) (r : Rotation) : (c.rotate r).flow = c.flow := by
  cases r <;> rfl

/-! ## Writes that change it -/

@[simp] theorem flow_jump (c : Core) (target : Word) :
    (c.jump target).flow = ⟨target, c.flow.inService⟩ := rfl

@[simp] theorem flow_jumpWhen (c : Core) (condition : Bool) (target : Word) :
    (c.jumpWhen condition target).flow =
      ⟨if condition then target else c.flow.pc, c.flow.inService⟩ := by
  cases condition <;> rfl

@[simp] theorem flow_call (c : Core) (target : Word) :
    (c.call target).flow = ⟨target, c.flow.inService⟩ := rfl

@[simp] theorem flow_ret (c : Core) : c.ret.flow = ⟨c.popWord.1, c.flow.inService⟩ := rfl

@[simp] theorem flow_returnFromInterrupt (c : Core) :
    c.returnFromInterrupt.flow = ⟨c.popWord.1, c.flow.inService.leave⟩ := rfl

end Core

namespace Chip

variable {X P : Type} [RegisterBus P]

@[simp] theorem flow_writeSfr (c : Chip X P) (a v : Byte) :
    (c.writeSfr a v).core.flow = c.core.flow := by
  unfold writeSfr
  split
  · exact c.core.flow_set _ v
  · dsimp only
    split <;> rfl

@[simp] theorem flow_writeDirect (c : Chip X P) (a v : Byte) :
    (c.writeDirect a v).core.flow = c.core.flow := by
  unfold writeDirect
  split
  · rfl
  · exact c.flow_writeSfr a v

@[simp] theorem flow_writeBit (c : Chip X P) (bit : Byte) (on : Bool) :
    (c.writeBit bit on).core.flow = c.core.flow :=
  c.flow_writeDirect _ _

@[simp] theorem flow_write (c : Chip X P) (operand : Operand) (v : Byte) :
    (c.write operand v).core.flow = c.core.flow := by
  cases operand with
  | direct address => exact c.flow_writeDirect address v
  | _ => rfl

/-! ## One instruction -/

/-- Where an instruction jumps, if it does. -/
def target? (c : Chip X P) : Instruction → Option Word
  | .jump _ target | .call _ target => some target
  | .ret | .returnFromInterrupt => some c.core.popWord.1
  | .jumpIndexed => some (c.core.dptr + c.core.a.toUInt16)
  | .jumpWhen condition target => if condition.holds c.core then some target else none
  | .jumpIfBit set bit target => if c.readBit bit == set then some target else none
  | .jumpClearBit bit target => if c.readBitLatch bit then some target else none
  | .compareJump left right target => if c.read left != c.read right then some target else none
  | .decrementJump operand target => if c.readBack operand - 1 != 0 then some target else none
  | _ => none

/-- Where an instruction jumps does not depend on where it is. -/
theorem target?_jump (c : Chip X P) (w : Word) (i : Instruction) :
    (c.mapCore (·.jump w)).target? i = c.target? i := by
  cases i <;> rfl

/-- The services in progress after an instruction. -/
def serviceAfter (c : Chip X P) (i : Instruction) : InService :=
  if i = .returnFromInterrupt then c.core.flow.inService.leave else c.core.flow.inService

/-! ## Interrupts -/

/-- The interrupt that the next step takes before it executes an instruction, with its level. -/
def entry? (c : Chip X P) : Option (Interrupt × Level) := if c.core.hold then none else c.pending?

theorem takeInterrupt_of_entry {c : Chip X P} {i : Interrupt} {level : Level}
    (h : c.entry? = some (i, level)) :
    c.takeInterrupt = ((c.mapCore ({ · with hold := false })).enter i level, 2) := by
  unfold entry? at h
  unfold takeInterrupt
  split at h
  · cases h
  · next hold =>
    dsimp only
    rw [if_neg hold, h]

theorem takeInterrupt_of_no_entry {c : Chip X P} (h : c.entry? = none) :
    c.takeInterrupt = (c.mapCore ({ · with hold := false }), 0) := by
  unfold entry? at h
  unfold takeInterrupt
  dsimp only
  split at h
  · next hold => rw [if_pos hold]
  · next hold => rw [if_neg hold, h]

theorem core_acknowledge (c : Chip X P) (i : Interrupt) : (c.acknowledge i).core = c.core := by
  unfold acknowledge
  dsimp only
  split <;> rfl

theorem core_enter (c : Chip X P) (i : Interrupt) (level : Level) :
    (c.enter i level).core =
      { c.core.call i.vector with inService := c.core.inService.enter level } := by
  unfold enter mapCore
  rw [core_acknowledge]

theorem flow_enter (c : Chip X P) (i : Interrupt) (level : Level) :
    (c.enter i level).core.flow = ⟨i.vector, c.core.flow.inService.enter level⟩ := by
  rw [core_enter]
  rfl

/-- Taking an interrupt begins a service at its level. -/
theorem flow_takeInterrupt (c : Chip X P) :
    c.takeInterrupt.1.core.flow =
      match c.entry? with
      | some (i, level) => ⟨i.vector, c.core.flow.inService.enter level⟩
      | none => c.core.flow := by
  cases h : c.entry? with
  | none =>
    rw [takeInterrupt_of_no_entry h]
    rfl
  | some entry =>
    obtain ⟨i, level⟩ := entry
    rw [takeInterrupt_of_entry h, flow_enter]
    rfl

/-! ## Execution -/

variable [ExternalBus X]

/-- An instruction jumps or stays, and only a return from an interrupt ends a service. -/
theorem flow_execute (code : Word → Byte) (c : Chip X P) (i : Instruction) :
    (c.execute code i).core.flow = ⟨(c.target? i).getD c.core.flow.pc, c.serviceAfter i⟩ := by
  cases i with
  | jumpWhen condition target =>
    cases h : condition.holds c.core <;> simp [execute, target?, serviceAfter, mapCore, h]
  | jumpIfBit set bit target =>
    cases h : c.readBit bit == set <;> simp [execute, target?, serviceAfter, mapCore, h]
  | jumpClearBit bit target =>
    cases h : c.readBitLatch bit <;> simp [execute, target?, serviceAfter, mapCore, h]
  | compareJump left right target =>
    cases h : c.read left != c.read right <;> simp [execute, target?, serviceAfter, mapCore, h]
  | decrementJump operand target =>
    cases h : c.readBack operand - 1 != 0 <;> simp [execute, target?, serviceAfter, mapCore, h]
  | swapNibbles => rfl
  | _ => simp [execute, target?, serviceAfter, mapCore]

theorem executeNext_of_reserved {code : Word → Byte} {c : Chip X P}
    (h : (Fetch.ofCode code c.core.pc).decode = .reserved) :
    c.executeNext code = (c, .error ⟨c.core.pc, code c.core.pc⟩) := by
  unfold executeNext
  dsimp only
  rw [h]
  rfl

theorem executeNext_of_ne_reserved {code : Word → Byte} {c : Chip X P} {fetch : Fetch}
    (hf : fetch = Fetch.ofCode code c.core.pc) (h : fetch.decode ≠ .reserved) :
    c.executeNext code =
      (((c.mapCore (·.jump fetch.next)).execute code fetch.decode).mapCore Core.updateParity,
        .ok fetch.decode.cycles) := by
  subst hf
  unfold executeNext
  dsimp only
  split
  · next reserved => exact absurd reserved h
  · rfl

/-- The next instruction falls through to the one behind it unless it jumps. -/
theorem flow_executeNext {code : Word → Byte} {c : Chip X P} {fetch : Fetch}
    (hf : fetch = Fetch.ofCode code c.core.pc) (h : fetch.decode ≠ .reserved) :
    (c.executeNext code).1.core.flow =
      ⟨(c.target? fetch.decode).getD fetch.next, c.serviceAfter fetch.decode⟩ := by
  rw [executeNext_of_ne_reserved hf h]
  calc (((c.mapCore (·.jump fetch.next)).execute code fetch.decode).mapCore
          Core.updateParity).core.flow
      = ((c.mapCore (·.jump fetch.next)).execute code fetch.decode).core.flow :=
        Core.flow_updateParity _
    _ = ⟨((c.mapCore (·.jump fetch.next)).target? fetch.decode).getD fetch.next,
          c.serviceAfter fetch.decode⟩ := flow_execute code _ _
    _ = _ := by rw [target?_jump]

/-- A step that takes no interrupt executes the instruction at the program counter. -/
theorem step_of_no_entry {code : Word → Byte} {c : Chip X P} (he : c.entry? = none) {fetch : Fetch}
    (hf : fetch = Fetch.ofCode code c.core.pc) (h : fetch.decode ≠ .reserved) :
    ∃ c' cycles, c.step code = (c', .ok cycles) ∧
      c'.core.flow = ⟨(c.target? fetch.decode).getD fetch.next, c.serviceAfter fetch.decode⟩ := by
  let released := c.mapCore ({ · with hold := false })
  have next := executeNext_of_ne_reserved (c := released) hf h
  have flow := flow_executeNext (c := released) hf h
  have target : released.target? fetch.decode = c.target? fetch.decode := by
    cases fetch.decode <;> rfl
  rw [target] at flow
  refine ⟨(released.executeNext code).1, 0 + fetch.decode.cycles, ?_, flow⟩
  unfold step
  rw [takeInterrupt_of_no_entry he]
  show ((released.executeNext code).1, (released.executeNext code).2.map (0 + ·)) = _
  rw [next]
  rfl

end Chip

end Trainer51
