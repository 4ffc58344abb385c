import Trainer51.Panel

/-!
# What a panel keeps of a reading

The panel scatters a reading over a flag table, rows of bits, named registers, digits from left to
right and addressed cells.  `Panel.reading` collects it again.  What stays away are the bits of IE
and IP that have no name, and nothing else.

    (FlagValues.ofRegisters value).byte x = value x &&& x.named     (FlagValues.byte_ofRegisters)
    (Panel.ofReading r).reading = r.named                           (Panel.reading_ofReading)
    Panel.ofReading r.named = Panel.ofReading r                     (Panel.ofReading_named)
-/

namespace Trainer51

/-! ## The way back -/

/-- The bits of a control register that have names. -/
def ControlRegister.named : ControlRegister → Byte
  | .ie => 0x9F
  | .ip => 0x1F
  | .psw | .tcon | .tmod => 0xFF

/-- A reading without the bits that have no name. -/
def Reading.named (r : Reading) : Reading :=
  { r with
    registers :=
      { r.registers with
        ie := r.registers.ie &&& ControlRegister.ie.named
        ip := r.registers.ip &&& ControlRegister.ip.named } }

/-- The byte of a control register, made of its flags. -/
def FlagValues.byte (flags : FlagValues) (register : ControlRegister) : Byte :=
  .ofBits ([7, 6, 5, 4, 3, 2, 1, 0].map (flags.get register))

/-- The value of the row with a name; 0 if there is none. -/
def BitRow.valueOf (rows : List BitRow) (name : String) : Byte :=
  ((rows.find? (·.name == name)).map (·.value)).getD 0

/-- The value of the register with a name; 0 if there is none. -/
def KeyRegister.valueOf (registers : List KeyRegister) (name : String) : Word :=
  ((registers.find? (·.name == name)).map (·.value)).getD 0

namespace Panel

variable (p : Panel)

/-- The registers of a panel, the control registers from their flags. -/
def shownRegisters : Registers where
  pc := KeyRegister.valueOf p.registers "PC"
  a := (KeyRegister.valueOf p.registers "A").toUInt8
  b := (KeyRegister.valueOf p.registers "B").toUInt8
  sp := (KeyRegister.valueOf p.registers "SP").toUInt8
  dptr := KeyRegister.valueOf p.registers "DPTR"
  psw := (KeyRegister.valueOf p.registers "PSW").toUInt8
  bank := (p.registers.drop 6).map (·.value.toUInt8)
  ie := p.flags.byte .ie
  ip := p.flags.byte .ip
  tcon := p.flags.byte .tcon
  tmod := p.flags.byte .tmod

def shownPorts : PortBytes where
  p0 := BitRow.valueOf p.ports Port.p0.name
  p1 := BitRow.valueOf p.ports Port.p1.name
  p2 := BitRow.valueOf p.ports Port.p2.name
  p3 := BitRow.valueOf p.ports Port.p3.name

def shownDevices : DeviceBytes where
  csds := BitRow.valueOf p.devices Device.csds.name
  csdb := BitRow.valueOf p.devices Device.csdb.name
  cskb0 := BitRow.valueOf p.devices Device.cskb0.name
  cskb1 := BitRow.valueOf p.devices Device.cskb1.name

/-- The reading that a panel shows. -/
def reading : Reading where
  pc := p.address
  registers := p.shownRegisters
  ports := p.shownPorts
  devices := p.shownDevices
  display := p.digits.reverse.map (·.toByte)
  space := p.memory.space
  memory := (p.memory.cells.map (·.value)).toArray

/-- Two panels that cannot be told apart, the memory compared cell by cell. -/
structure Alike (p q : Panel) : Prop where
  address : p.address = q.address
  flags : p.flags = q.flags
  ports : p.ports = q.ports
  devices : p.devices = q.devices
  registers : p.registers = q.registers
  digits : p.digits = q.digits
  enables : p.enables = q.enables
  space : p.memory.space = q.memory.space
  cells : p.memory.cells = q.memory.cells

end Panel

/-! ## Flags -/

/-- Every bit of the other registers has a name. -/
theorem ControlRegister.and_named {x : ControlRegister} (notIe : x ≠ ie) (notIp : x ≠ ip)
    (b : Byte) : b &&& x.named = b := by
  cases x with
  | ie => exact absurd rfl notIe
  | ip => exact absurd rfl notIp
  | psw | tcon | tmod => exact UInt8.and_neg_one

/-- The named bits are those that a flag stands for. -/
theorem Flag.any_table (register : ControlRegister) :
    ∀ n ∈ [7, 6, 5, 4, 3, 2, 1, 0],
      Flag.table.any (fun f => f.register == register && f.position == n) =
        register.named.bit n := by
  cases register <;> decide +kernel

theorem Flag.named_of_mem_table : ∀ f ∈ Flag.table, f.register.named.bit f.position = true := by
  decide +kernel

theorem FlagValues.toList_ofRegisters (value : ControlRegister → Byte) :
    (ofRegisters value).toList =
      Flag.table.map fun f => (f, (value f.register).bit f.position) := by
  simpa [toList, ofRegisters] using
    List.zip_map' (f := id) (g := fun f : Flag => (value f.register).bit f.position)
      (l := Flag.table)

/-- The flag of a bit is the bit. -/
theorem FlagValues.get_ofRegisters (value : ControlRegister → Byte) (register : ControlRegister)
    (n : Nat) :
    (ofRegisters value).get register n =
      (Flag.table.any (fun f => f.register == register && f.position == n) &&
        (value register).bit n) := by
  rw [get, toList_ofRegisters, Bool.eq_iff_iff]
  simp only [List.any_map, List.any_eq_true, Function.comp_apply, Bool.and_eq_true, beq_iff_eq]
  constructor
  · rintro ⟨f, hf, ⟨rfl, rfl⟩, on⟩
    exact ⟨⟨f, hf, rfl, rfl⟩, on⟩
  · rintro ⟨⟨f, hf, rfl, rfl⟩, on⟩
    exact ⟨f, hf, ⟨rfl, rfl⟩, on⟩

/-- The flags tell the named bits of every control register. -/
theorem FlagValues.byte_ofRegisters (value : ControlRegister → Byte)
    (register : ControlRegister) :
    (ofRegisters value).byte register = value register &&& register.named := by
  have same : [7, 6, 5, 4, 3, 2, 1, 0].map ((ofRegisters value).get register) =
      (value register &&& register.named).bits :=
    List.map_congr_left fun n hn => by
      rw [get_ofRegisters, Flag.any_table register n hn, Byte.bit_and, Bool.and_comm]
  rw [byte, same, Byte.ofBits_bits]

/-- The flags tell nothing of the other bits. -/
theorem FlagValues.ofRegisters_named (value : ControlRegister → Byte) :
    ofRegisters (fun x => value x &&& x.named) = ofRegisters value := by
  refine congrArg FlagValues.mk (List.map_congr_left fun f hf => ?_)
  rw [Byte.bit_and, Flag.named_of_mem_table f hf, Bool.and_true]

/-! ## Rows, digits and registers -/

@[simp] theorem BitRow.value_ofByte (name : String) (b : Byte) : (ofByte name b).value = b :=
  Byte.ofBits_bits b

/-- A row is found by its name where the names tell the rows apart. -/
theorem BitRow.valueOf_map {α : Type} {name : α → String} (value : α → Byte) {xs : List α}
    (distinct : ∀ x y, name x = name y → x = y) {x : α} (hx : x ∈ xs) :
    valueOf (xs.map fun x => ofByte (name x) (value x)) (name x) = value x := by
  obtain ⟨y, hy⟩ : ∃ y, xs.find? (fun y => name y == name x) = some y :=
    Option.isSome_iff_exists.1 (List.find?_isSome.2 ⟨x, hx, beq_self_eq_true _⟩)
  have same : y = x := distinct y x (by simpa using List.find?_some hy)
  have found : xs.find? ((·.name == name x) ∘ fun x => ofByte (name x) (value x)) = some x :=
    same ▸ hy
  rw [valueOf, List.find?_map, found]
  exact value_ofByte (name x) (value x)

theorem Port.name_injective (x y : Port) (h : x.name = y.name) : x = y := by
  revert h
  cases x <;> cases y <;> decide

theorem Device.name_injective (x y : Device) (h : x.name = y.name) : x = y := by
  revert h
  cases x <;> cases y <;> decide

theorem BitRow.valueOf_ofPorts (ports : PortBytes) (port : Port) :
    valueOf (ofPorts ports.toList) port.name = ports.get port := by
  rw [ofPorts, PortBytes.toList, List.zipWith_map_right, List.zipWith_self]
  exact valueOf_map ports.get Port.name_injective (by cases port <;> decide)

theorem BitRow.valueOf_ofDevices (d : DeviceBytes) (x : Device) :
    valueOf (ofDevices d) x.name = d.get x :=
  valueOf_map d.get Device.name_injective (by cases x <;> decide)

@[simp] theorem Digit.toByte_ofByte (b : Byte) : (ofByte b).toByte = b := Byte.ofBits_bits b

theorem Digit.bytes_ofBytes (bytes : List Byte) :
    (ofBytes bytes).reverse.map (·.toByte) = bytes := by
  simp [ofBytes, Function.comp_def]

@[simp] theorem KeyRegister.value_byte (name : String) (b : Byte) :
    (byte name b).value.toUInt8 = b := by
  simp [byte]

theorem KeyRegister.bank_ofRegisters (r : Registers) :
    ((ofRegisters r).drop 6).map (·.value.toUInt8) = r.bank := by
  simp [ofRegisters, Function.comp_def]

/-! ## Memory -/

theorem MemoryTable.value_cells (t : MemoryTable) :
    (t.cells.map (·.value)).toArray = t.bytes := by
  simp [cells, cell, Function.comp_def]

/-- The cells count up from the base address of the space. -/
theorem MemoryTable.address_cells (t : MemoryTable) :
    t.cells.map (·.address) =
      (List.range t.size).map fun i => t.space.base + UInt16.ofNat i := by
  have positions : t.bytes.toList.zipIdx.map (·.2) = List.range t.size := by
    rw [List.zipIdx_map_snd, List.range_eq_range', Array.length_toList, size]
  rw [← positions, cells, List.map_map, List.map_map]
  rfl

/-! ## The panel -/

namespace Panel

theorem shownPorts_ofReading (r : Reading) : (ofReading r).shownPorts = r.ports := by
  simp [shownPorts, ofReading, BitRow.valueOf_ofPorts, PortBytes.get]

theorem shownDevices_ofReading (r : Reading) : (ofReading r).shownDevices = r.devices := by
  simp [shownDevices, ofReading, BitRow.valueOf_ofDevices, DeviceBytes.get]

theorem shownRegisters_ofReading (r : Reading) :
    (ofReading r).shownRegisters = r.named.registers := by
  simp only [shownRegisters, ofReading, Reading.named, FlagValues.byte_ofRegisters,
    KeyRegister.bank_ofRegisters]
  simp [KeyRegister.valueOf, KeyRegister.ofRegisters, KeyRegister.word, KeyRegister.byte,
    Registers.control, ControlRegister.and_named]

/-- A panel tells everything of its reading but the bits without a name. -/
theorem reading_ofReading (r : Reading) : (ofReading r).reading = r.named := by
  rw [reading, shownPorts_ofReading, shownDevices_ofReading, shownRegisters_ofReading]
  simp only [ofReading, Digit.bytes_ofBytes, MemoryTable.value_cells, Reading.named]

/-- The bits without a name do not show. -/
theorem ofReading_named (r : Reading) : ofReading r.named = ofReading r := by
  have control : r.named.registers.control = fun x => r.registers.control x &&& x.named := by
    funext x
    cases x <;> simp [Reading.named, Registers.control, ControlRegister.and_named]
  have flags : (ofReading r.named).flags = (ofReading r).flags := by
    rw [ofReading, control, FlagValues.ofRegisters_named, ofReading]
  simp only [ofReading] at flags ⊢
  rw [flags]
  rfl

/-- A panel's reading depends on nothing but what the panel shows. -/
theorem Alike.reading_eq {p q : Panel} (h : p.Alike q) : p.reading = q.reading := by
  simp only [reading, shownRegisters, shownPorts, shownDevices, h.address, h.flags, h.ports,
    h.devices, h.registers, h.digits, h.space, h.cells]

theorem Alike.of_eq {p q : Panel} (h : p = q) : p.Alike q := by
  subst h
  constructor <;> rfl

/-- **A panel loses nothing that has a name.**  It gives its whole reading back but for the unnamed
bits of IE and IP, so the panels of two readings look alike exactly if the readings agree up to
those bits. -/
theorem lossless (r s : Reading) :
    (ofReading r).reading = r.named ∧
      (ofReading r).memory.cells.map (·.address) =
        (List.range r.memory.size).map (fun i => r.space.base + UInt16.ofNat i) ∧
      ((ofReading r).Alike (ofReading s) ↔ r.named = s.named) := by
  refine ⟨reading_ofReading r, MemoryTable.address_cells _, ?_, ?_⟩
  · intro alike
    rw [← reading_ofReading r, ← reading_ofReading s, alike.reading_eq]
  · intro named
    apply Alike.of_eq
    rw [← ofReading_named r, ← ofReading_named s, named]

/-- Bit 5 of IE has no name, so it does not show. -/
example : ofReading { registers := { ie := 0x20 } } = ofReading {} := rfl

end Panel

end Trainer51
