import Trainer51.Proofs.Dsm51.Settled

/-!
# The special function registers are independent

The addresses from 80h on lead to registers of the core, port latches, registers of the timers and
plain cells.  Each address leads to a place of its own, so a write changes one register; and a
register reads as it is stored, but for the pins of a port, which the outside can pull low.

    0x80 ≤ a → (ofAddress a).address = a                                   (address_ofAddress)
    (c.writeSfr a v).stored p = if ofAddress a = p then v else c.stored p    (stored_writeSfr)
    c.readLatch a = c.stored (ofAddress a)                               (readLatch_eq_stored)
    c.readSfr a = c.readLatch a &&& c.levels a                                    (readSfr_eq)
-/

namespace Trainer51

/-! ## Places -/

theorem CoreRegister.address_of_ofAddress? {a : Byte} {r : CoreRegister}
    (h : ofAddress? a = some r) : r.address = a := by
  have found := List.find?_some h
  exact eq_of_beq found

theorem Port.address_of_ofAddress? {a : Byte} {port : Port} (h : ofAddress? a = some port) :
    port.address = a := by
  have found := List.find?_some h
  exact eq_of_beq found

theorem Port.ofAddress?_address (port : Port) : ofAddress? port.address = some port := by
  cases port <;> decide

/-- The core holds no port. -/
theorem CoreRegister.ofAddress?_of_port {a : Byte} {port : Port}
    (h : Port.ofAddress? a = some port) : ofAddress? a = none := by
  obtain rfl := Port.address_of_ofAddress? h
  cases port <;> decide

theorem Port.ofAddress?_of_core {a : Byte} {r : CoreRegister}
    (h : CoreRegister.ofAddress? a = some r) : ofAddress? a = none := by
  obtain rfl := CoreRegister.address_of_ofAddress? h
  cases r <;> decide

/-- Where a special function register is kept. -/
inductive RegisterPlace where
  | core (r : CoreRegister)
  | latch (port : Port)
  | timer (r : TimerRegister)
  | plain (i : Fin 128)
  deriving DecidableEq

namespace RegisterPlace

/-- The place that an address leads to. -/
def ofAddress (a : Byte) : RegisterPlace :=
  match CoreRegister.ofAddress? a with
  | some r => core r
  | none =>
    match Port.ofAddress? a with
    | some port => latch port
    | none =>
      match TimerRegister.ofAddress? a with
      | some r => timer r
      | none => plain (Peripherals.plainIndex a)

/-- How an address leads to its place. -/
inductive LeadsTo (a : Byte) : RegisterPlace → Prop
  | core {r : CoreRegister} (core : CoreRegister.ofAddress? a = some r) : LeadsTo a (.core r)
  | latch {q : Port} (core : CoreRegister.ofAddress? a = none)
    (port : Port.ofAddress? a = some q) : LeadsTo a (.latch q)
  | timer {r : TimerRegister} (core : CoreRegister.ofAddress? a = none)
    (port : Port.ofAddress? a = none) (timer : TimerRegister.ofAddress? a = some r) :
    LeadsTo a (.timer r)
  | plain (core : CoreRegister.ofAddress? a = none) (port : Port.ofAddress? a = none)
    (timer : TimerRegister.ofAddress? a = none) : LeadsTo a (.plain (Peripherals.plainIndex a))

theorem leadsTo_ofAddress (a : Byte) : LeadsTo a (ofAddress a) := by
  unfold ofAddress
  split
  · next core => exact .core core
  · next core =>
    split
    · next port => exact .latch core port
    · next port =>
      split
      · next timer => exact .timer core port timer
      · next timer => exact .plain core port timer

/-- The address of a place. -/
def address : RegisterPlace → Byte
  | core r => r.address
  | latch port => port.address
  | timer r => r.address
  | plain i => UInt8.ofNat (0x80 + i.val)

/-- Every address has a place of its own. -/
theorem address_ofAddress {a : Byte} (h : 0x80 ≤ a) : (ofAddress a).address = a := by
  have leads := leadsTo_ofAddress a
  generalize ofAddress a = p at leads
  cases leads with
  | core core => exact CoreRegister.address_of_ofAddress? core
  | latch _ port => exact Port.address_of_ofAddress? port
  | timer _ _ timer => exact TimerRegister.address_of_ofAddress? timer
  | plain =>
    have low : 0x80 ≤ a.toNat := UInt8.le_iff_toNat_le.1 h
    have high := a.toNat_lt
    apply UInt8.toNat_inj.1
    show (0x80 + a.toNat % 128) % 256 = a.toNat
    omega

theorem ofAddress_inj {a b : Byte} (ha : 0x80 ≤ a) (hb : 0x80 ≤ b) :
    ofAddress a = ofAddress b ↔ a = b := by
  constructor
  · intro same
    rw [← address_ofAddress ha, same, address_ofAddress hb]
  · rintro rfl
    rfl

end RegisterPlace

/-! ## Registers as they are stored -/

theorem Timers.read_write (t : Timers) (r s : TimerRegister) (v : Byte) :
    (t.write r v).read s = if r = s then v else t.read s := by
  cases r <;> cases s <;> rfl

theorem Core.get_set (c : Core) (r s : CoreRegister) (v : Byte) :
    (c.set r v).get s = if r = s then v else c.get s := by
  cases r <;> cases s <;> rfl

namespace Chip

variable (c : Chip ExternalData Peripherals)

/-- What is kept at a place. -/
def stored : RegisterPlace → Byte
  | .core r => c.core.get r
  | .latch port => c.registers.latches.get port
  | .timer r => c.registers.timers.read r
  | .plain i => c.registers.plain[i]

/-- Keep a byte at a place. -/
def store (v : Byte) : RegisterPlace → Chip ExternalData Peripherals
  | .core r => { c with core := c.core.set r v }
  | .latch port =>
    { c with registers := { c.registers with latches := c.registers.latches.set port v } }
  | .timer r => { c with registers := { c.registers with timers := c.registers.timers.write r v } }
  | .plain i => { c with registers := { c.registers with plain := c.registers.plain.set i v } }

theorem stored_store (v : Byte) (p q : RegisterPlace) :
    (c.store v p).stored q = if p = q then v else c.stored q := by
  cases p <;> cases q <;> simp [store, stored, Core.get_set, PortBytes.get_set, Timers.read_write,
    Vector.getElem_set, Fin.ext_iff]

/-- What is done to the core besides its registers is kept at no address. -/
theorem stored_mapCore {f : Core → Core} (h : ∀ r, (f c.core).get r = c.core.get r)
    (p : RegisterPlace) : (c.mapCore f).stored p = c.stored p := by
  cases p with
  | core r => exact h r
  | _ => rfl

/-! ## Writes -/

/-- A write stores a byte at the place of its address; at the enable and the priority register it
also sets the hold. -/
theorem writeSfr_eq (a v : Byte) :
    c.writeSfr a v =
      (if a = Sfr.ie ∨ a = Sfr.ip then c.mapCore ({ · with hold := true }) else c).store v
        (.ofAddress a) := by
  have leads := RegisterPlace.leadsTo_ofAddress a
  generalize RegisterPlace.ofAddress a = p at leads
  cases leads with
  | @core r core =>
    have other : ¬(a = Sfr.ie ∨ a = Sfr.ip) := by
      rw [← CoreRegister.address_of_ofAddress? core]
      cases r <;> decide
    rw [if_neg other]
    simp only [writeSfr, core]
    rfl
  | latch core port =>
    simp only [writeSfr, core, RegisterBus.write, Peripherals.write, port]
    split <;> rfl
  | timer core port timer | plain core port timer =>
    simp only [writeSfr, core, RegisterBus.write, Peripherals.write, port, timer]
    split <;> rfl

/-- A write changes what is kept at one place. -/
theorem stored_writeSfr (a v : Byte) (p : RegisterPlace) :
    (c.writeSfr a v).stored p = if RegisterPlace.ofAddress a = p then v else c.stored p := by
  rw [writeSfr_eq, stored_store]
  split
  · rfl
  · split
    · exact c.stored_mapCore (fun r => by cases r <;> rfl) p
    · rfl

theorem ram_writeSfr (a v : Byte) : (c.writeSfr a v).core.ram = c.core.ram := by
  unfold writeSfr
  split
  · next r _ => cases r <;> rfl
  · dsimp only
    split <;> rfl

theorem external_writeSfr (a v : Byte) : (c.writeSfr a v).external = c.external := by
  unfold writeSfr
  split <;> rfl

theorem outside_writeSfr (a v : Byte) :
    (c.writeSfr a v).registers.outside = c.registers.outside :=
  (Dsm51.busesKeep_outside c.registers.outside).writeSfr (c := c) rfl a v

/-! ## Reads -/

/-- What an instruction reads that writes its result back is the register as it is stored. -/
theorem readLatch_eq_stored {a : Byte} (h : 0x80 ≤ a) :
    c.readLatch a = c.stored (.ofAddress a) := by
  have leads := RegisterPlace.leadsTo_ofAddress a
  have direct : c.readDirect a = c.readSfr a := if_neg (UInt8.not_lt.2 h)
  generalize RegisterPlace.ofAddress a = p at leads
  cases leads with
  | core core =>
    have port : Port.ofAddress? a = none := Port.ofAddress?_of_core core
    simp only [readLatch, direct, readSfr, core, port]
    rfl
  | latch core port =>
    simp only [readLatch, RegisterBus.readLatch, Peripherals.readLatch, port]
    rfl
  | timer core port timer | plain core port timer =>
    simp only [readLatch, direct, readSfr, RegisterBus.read, Peripherals.read, core, port, timer]
    rfl

/-- What the outside drives at an address; only the pins of a port can be low. -/
def levels (a : Byte) : Byte := (Port.ofAddress? a).elim 0xFF c.registers.outside.get

/-- The outside shows in a register only by what it pulls low. -/
theorem readSfr_eq {a : Byte} (h : 0x80 ≤ a) : c.readSfr a = c.readLatch a &&& c.levels a := by
  unfold readLatch levels
  cases port : Port.ofAddress? a with
  | some port' =>
    simp only [readSfr, CoreRegister.ofAddress?_of_port port, RegisterBus.read, Peripherals.read,
      RegisterBus.readLatch, Peripherals.readLatch, port]
    rfl
  | none =>
    have direct : c.readDirect a = c.readSfr a := if_neg (UInt8.not_lt.2 h)
    rw [← direct]
    exact (UInt8.and_neg_one).symm

theorem readLatch_writeSfr {a b : Byte} (ha : 0x80 ≤ a) (hb : 0x80 ≤ b) (v : Byte) :
    (c.writeSfr a v).readLatch b = if a = b then v else c.readLatch b := by
  rw [readLatch_eq_stored _ hb, stored_writeSfr, readLatch_eq_stored _ hb]
  simp only [RegisterPlace.ofAddress_inj ha hb]

theorem readSfr_writeSfr {a b : Byte} (ha : 0x80 ≤ a) (hb : 0x80 ≤ b) (v : Byte) :
    (c.writeSfr a v).readSfr b = (if a = b then v else c.readLatch b) &&& c.levels b := by
  have levels : (c.writeSfr a v).levels b = c.levels b := by
    unfold levels
    rw [outside_writeSfr]
  rw [readSfr_eq _ hb, readLatch_writeSfr c ha hb, levels]

theorem readSfr_address (r : CoreRegister) : c.readSfr r.address = c.core.get r := by
  cases r <;> rfl

theorem latch_eq_readLatch (port : Port) :
    c.registers.latches.get port = c.readLatch port.address := by
  cases port <;> rfl

theorem levels_address (port : Port) :
    c.levels port.address = c.registers.outside.get port := by
  unfold levels
  rw [port.ofAddress?_address]
  rfl

theorem levels_of_no_port {a : Byte} (h : ∀ port : Port, port.address ≠ a) :
    c.levels a = 0xFF := by
  unfold levels
  cases found : Port.ofAddress? a with
  | none => rfl
  | some port => exact absurd (Port.address_of_ofAddress? found) (h port)

/-! ## Direct addresses -/

/-- Below 80h a direct address is internal RAM. -/
theorem readLatch_of_lt {a : Byte} (h : a < 0x80) : c.readLatch a = c.core.readRam a := by
  have port : Port.ofAddress? a = none := by
    cases found : Port.ofAddress? a with
    | none => rfl
    | some port =>
      obtain rfl := Port.address_of_ofAddress? found
      exact absurd h (by cases port <;> decide)
  unfold readLatch readDirect
  rw [port]
  exact if_pos h

theorem readRam_writeDirect (a b v : Byte) :
    (c.writeDirect a v).core.readRam b = if a < 0x80 ∧ a = b then v else c.core.readRam b := by
  unfold writeDirect
  by_cases ram : a < 0x80
  · rw [if_pos ram]
    refine (c.core.ram.read_write a b v).trans ?_
    simp only [ram, true_and]
    rfl
  · rw [if_neg ram]
    simp only [ram, false_and, if_false]
    exact congrArg (·.read b) (c.ram_writeSfr a v)

/-- A write at a direct address is read back there and nowhere else. -/
theorem readLatch_writeDirect (a b v : Byte) :
    (c.writeDirect a v).readLatch b = if a = b then v else c.readLatch b := by
  by_cases hb : b < 0x80
  · rw [readLatch_of_lt _ hb, readRam_writeDirect, readLatch_of_lt _ hb]
    by_cases same : a = b
    · subst same
      rw [if_pos ⟨hb, rfl⟩, if_pos rfl]
    · rw [if_neg fun h => same h.2, if_neg same]
  · unfold writeDirect
    by_cases ha : a < 0x80
    · have other : a ≠ b := fun same => hb (same ▸ ha)
      rw [if_pos ha, if_neg other, readLatch_eq_stored _ (UInt8.not_lt.1 hb),
        readLatch_eq_stored _ (UInt8.not_lt.1 hb)]
      exact c.stored_mapCore (f := (·.writeRam a v)) (fun r => by cases r <;> rfl) _
    · rw [if_neg ha]
      exact c.readLatch_writeSfr (UInt8.not_lt.1 ha) (UInt8.not_lt.1 hb) v

end Chip

/-! ## The board -/

namespace Dsm51

/-- The register at an address has been written; the others and the memories are as before. -/
structure WritesOnly (d : Dsm51) (a v : Byte) (d' : Dsm51) : Prop where
  /-- A port takes the byte into its latch, and its pins are pulled low from outside as before. -/
  port : ∀ port : Port, port.address = a → d'.peripherals.latches.get port = v ∧
    d'.readSfr a = v &&& d.peripherals.outside.get port
  register : (∀ port : Port, port.address ≠ a) → d'.readSfr a = v
  others : ∀ b, 0x80 ≤ b → b ≠ a → d'.readSfr b = d.readSfr b
  latches : ∀ port : Port, port.address ≠ a →
    d'.peripherals.latches.get port = d.peripherals.latches.get port
  outside : d'.peripherals.outside = d.peripherals.outside
  ram : d'.core.ram = d.core.ram
  external : d'.external = d.external

/-- What a board shows is what is read of its registers and of its RAM one by one. -/
structure Shows (d : Dsm51) : Prop where
  size : (Machine.memory d .sfr).size = 128
  sfr : ∀ a, 0x80 ≤ a → (Machine.memory d .sfr)[a.toNat - 0x80]? = some (d.readSfr a)
  ram : ∀ a : Byte, (Machine.memory d .ram)[a.toNat]? = some (d.core.readRam a)
  registers : Machine.registers d = {
    pc := Machine.pc d
    a := d.readSfr CoreRegister.a.address
    b := d.readSfr CoreRegister.b.address
    sp := d.readSfr CoreRegister.sp.address
    dptr := Word.ofBytes (d.readSfr CoreRegister.dph.address) (d.readSfr CoreRegister.dpl.address)
    psw := d.readSfr CoreRegister.psw.address
    bank := (List.finRange 8).map fun number : Fin 8 =>
      d.core.readRam ((d.readSfr CoreRegister.psw.address &&& 0x18) + UInt8.ofNat number.val)
    ie := d.readSfr Sfr.ie
    ip := d.readSfr Sfr.ip
    tcon := d.readSfr Sfr.tcon
    tmod := d.readSfr Sfr.tmod }

theorem writesOnly_writeSfr (d : Dsm51) {a : Byte} (h : 0x80 ≤ a) (v : Byte) :
    d.WritesOnly a v (d.writeSfr a v) where
  port := by
    rintro port rfl
    constructor
    · exact ((d.chip.writeSfr _ v).latch_eq_readLatch port).trans
        ((d.chip.readLatch_writeSfr h h v).trans (if_pos rfl))
    · refine (d.chip.readSfr_writeSfr h h v).trans ?_
      rw [if_pos rfl, d.chip.levels_address]
      rfl
  register no_port := by
    refine (d.chip.readSfr_writeSfr h h v).trans ?_
    rw [if_pos rfl, d.chip.levels_of_no_port no_port]
    exact UInt8.and_neg_one
  others b hb other := by
    refine (d.chip.readSfr_writeSfr h hb v).trans ?_
    rw [if_neg other.symm, ← d.chip.readSfr_eq hb]
    rfl
  latches port other := by
    have high : 0x80 ≤ port.address := by
      cases port <;> decide
    refine ((d.chip.writeSfr a v).latch_eq_readLatch port).trans ?_
    rw [d.chip.readLatch_writeSfr h high, if_neg other.symm, ← d.chip.latch_eq_readLatch]
    rfl
  outside := d.chip.outside_writeSfr a v
  ram := d.chip.ram_writeSfr a v
  external := d.chip.external_writeSfr a v

theorem memory_sfr (d : Dsm51) {a : Byte} (h : 0x80 ≤ a) :
    (d.memory .sfr)[a.toNat - 0x80]? = some (d.readSfr a) := by
  have low : 0x80 ≤ a.toNat := UInt8.le_iff_toNat_le.1 h
  have high := a.toNat_lt
  have address : UInt8.ofNat (0x80 + (a.toNat - 0x80)) = a := by
    rw [Nat.add_sub_cancel' low, UInt8.ofNat_toNat]
  unfold memory
  dsimp only
  rw [Array.getElem?_ofFn, dif_pos (by omega), address]

theorem memory_ram (d : Dsm51) (a : Byte) :
    (d.memory .ram)[a.toNat]? = some (d.core.readRam a) := by
  have high : a.toNat < 0x100 := a.toNat_lt
  show d.core.ram.toArray[a.toNat]? = _
  rw [Vector.getElem?_toArray]
  exact Vector.getElem?_eq_getElem high

theorem size_memory_sfr (d : Dsm51) : (d.memory .sfr).size = 128 := by
  unfold memory
  dsimp only
  rw [Array.size_ofFn]

theorem shows (d : Dsm51) : d.Shows := by
  refine ⟨d.size_memory_sfr, fun a h => d.memory_sfr h, d.memory_ram, ?_⟩
  have held : ∀ r : CoreRegister, d.readSfr r.address = d.core.get r := d.chip.readSfr_address
  simp only [held]
  rfl

/-- **The special function registers are independent.**  Whatever is written at an address from 80h
on is read back there, but for the pins that the outside pulls low, and in a port the latch holds it
all the same.  Nothing else is read differently at the other addresses, and RAM and external memory,
the keyboard banks over it included, stay as they are.  The registers, the register space and the
RAM that the board shows are the ones that are read one by one. -/
theorem registers_independent (d : Dsm51) :
    (∀ a v, 0x80 ≤ a → d.WritesOnly a v (d.writeSfr a v)) ∧ d.Shows :=
  ⟨fun _ v h => d.writesOnly_writeSfr h v, d.shows⟩

/-- The line of the sequential keyboard holds a pin of port 3 low. -/
theorem registers_independent_p3 :
    let d : Dsm51 := {}
    let d' := d.writeSfr Port.p3.address 0xF0
    0x80 ≤ Port.p3.address ∧ d'.peripherals.latches.p3 = 0xF0 ∧
      d'.readSfr Port.p3.address = 0xD0 ∧ d'.readSfr Sfr.ip = d.readSfr Sfr.ip ∧
      (Machine.memory d .sfr)[0x30]? = some (d.readSfr Port.p3.address) := by
  intro d d'
  obtain ⟨writes, shown⟩ := registers_independent d
  have written := writes Port.p3.address 0xF0 (by decide)
  obtain ⟨latch, pins⟩ := written.port .p3 rfl
  have masked : (0xF0 : Byte) &&& 0xDF = 0xD0 := by decide
  exact ⟨by decide, latch, pins.trans masked, written.others Sfr.ip (by decide) (by decide),
    shown.sfr Port.p3.address (by decide)⟩

end Dsm51

end Trainer51
