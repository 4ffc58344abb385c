import Trainer51.Proofs.Dsm51.Inputs

/-!
# The matrix keyboard

Each key of the matrix has a bit of its own in one of two banks, which a program reads as external
memory.  The banks are also among the devices and in the memory table, and every one of these
readings says of a key what the workbench remembers of it.

    a cell of external memory is what a program reads there                  (cells_read)
    a bank reads the same everywhere                                         (reads_bank)
    its bits are the keys that are held                                      (matrix_keys_after_new)
-/

namespace Trainer51

/-- The device that shows the inputs of a register. -/
def InputRegister.device? : InputRegister → Option Device
  | cskb0 => some .cskb0
  | cskb1 => some .cskb1
  | port3 => none

/-- A key of the trainer. -/
def Key.Exists : Key → Prop
  | sequential _ => True
  | matrix key => key ∈ MatrixKey.all

namespace MatrixKey

theorem exists_bank (k : MatrixKey) : ∃ bank, k.bit.register.device? = some bank := by
  cases register : k.bit.register with
  | port3 => exact absurd register k.register_ne_port3
  | cskb0 | cskb1 => exact ⟨_, rfl⟩

/-- No two keys have the same bit. -/
theorem eq_of_same : ∀ k ∈ all, ∀ l ∈ all, k.bit.Same l.bit → k = l := by decide

end MatrixKey

/-- The bit of a key of the matrix is driven by that key only. -/
theorem Key.same_matrix_iff {key : Key} (exist : key.Exists) {k : MatrixKey}
    (hk : k ∈ MatrixKey.all) : key.bit.Same (matrix k).bit ↔ key = matrix k := by
  constructor
  · intro same
    cases key with
    | matrix l => rw [MatrixKey.eq_of_same l exist k hk same]
    | sequential => exact absurd same.1.symm k.register_ne_port3
  · rintro rfl
    exact ⟨rfl, rfl⟩

/-! ## Reading a bank -/

namespace ExternalData

theorem read_device (x : ExternalData) (device : Device) :
    x.read device.address = x.devices.get device := by
  cases device <;> rfl

/-- A cell of external memory is what a program reads there. -/
theorem cells_read (x : ExternalData) (a : Word) : x.cells.read a = x.read a := by
  by_cases device : ∃ device : Device, device.address = a
  · obtain ⟨device, rfl⟩ := device
    rw [read_device]
    cases device <;> simp [cells, Device.all, Store64K.read_write, Device.address]
  · have other (d : Device) : ¬ d.address = a := fun same => device ⟨d, same⟩
    simp [cells, read, Device.ofAddress?, Device.all, Store64K.read_write, other]

/-- The key banks cannot be written. -/
theorem write_bank (x : ExternalData) {register : InputRegister} {bank : Device}
    (h : register.device? = some bank) (v : Byte) : x.write bank.address v = x := by
  cases register <;> cases h <;> rfl

end ExternalData

/-- The byte of a key bank among the devices. -/
theorem Dsm51.get_bank (d : Dsm51) {register : InputRegister} {bank : Device}
    (h : register.device? = some bank) : d.external.devices.get bank = d.input register := by
  cases register <;> cases h <;> rfl

namespace Workbench

/-- A device has a value wherever it can be read: by a program that addresses it in any way, among
the devices, as a cell of external memory, and on the panel. -/
structure Reads (w : Workbench Dsm51) (device : Device) (b : Byte) : Prop where
  program : ∀ (chip : Chip ExternalData Peripherals) (code : Word → Byte)
    (pointer : ExternalPointer), chip.external = w.machine.external →
    chip.externalAddress pointer = device.address →
    (chip.execute code (.readExternal pointer)).core.a = b
  devices : (Machine.devices w.machine).get device = b
  memory : (Machine.memory w.machine .xram)[device.address.toNat]? = some b
  table : w.space = .xram → w.panel.memory.bytes[device.address.toNat]? = some b
  row : w.panel.devices.find? (·.name == device.name) = some ⟨device.name, b.bits⟩

theorem reads_device {w : Workbench Dsm51} (current : w.Current) (device : Device) :
    w.Reads device (w.machine.external.devices.get device) := by
  have memory : (Machine.memory w.machine .xram)[device.address.toNat]? =
      some (w.machine.external.devices.get device) := by
    rw [← w.machine.external.read_device, ← w.machine.external.cells_read]
    show w.machine.external.cells.toArray[device.address.toNat]? = _
    rw [Vector.getElem?_toArray]
    exact Vector.getElem?_eq_getElem device.address.toNat_lt
  constructor
  case program =>
    intro chip code pointer same address
    rw [← w.machine.external.read_device, ← same, ← address]
    rfl
  case devices => rfl
  case memory => exact memory
  case table =>
    intro xram
    rw [current.panel, xram]
    exact memory
  case row =>
    rw [current.panel]
    cases device <;> rfl

/-! ## The keys of the matrix -/

/-- The banks of the matrix keyboard and the held keys go together. -/
structure MatrixAgrees (w : Workbench Dsm51) : Prop where
  /-- The bit of a key is set exactly while the key is held. -/
  held : ∀ k ∈ MatrixKey.all, ∃ bank b, k.bit.register.device? = some bank ∧ w.Reads bank b ∧
    b.bit k.bit.position = w.keys.isHeld (.matrix k)
  /-- A press sets the bit and leaves every other input alone. -/
  press : ∀ now, ∀ k ∈ MatrixKey.all,
    let pressed := (w.perform now (.command (.pressKey (.matrix k)))).bench.machine
    pressed.level k.bit = true ∧ ∀ b, ¬ k.bit.Same b → pressed.level b = w.machine.level b
  /-- A release clears the bit and leaves every other input alone. -/
  release : ∀ now, ∀ k ∈ MatrixKey.all,
    let released := (w.perform now (.command (.releaseKey (.matrix k)))).bench.machine
    released.level k.bit = false ∧ ∀ b, ¬ k.bit.Same b → released.level b = w.machine.level b
  /-- No instruction changes an input, whether or not it fails. -/
  program : (Machine.step w.machine).1.input = w.machine.input
  /-- A program that writes to a bank writes nothing. -/
  write : ∀ (register : InputRegister) (bank : Device), register.device? = some bank →
    ∀ v, ExternalBus.write w.machine.external bank.address v = w.machine.external
  reset : ∀ now, let o := w.perform now (.command .reset)
    o.bench.keys = w.keys ∧ o.bench.machine.input = w.machine.input
  loaded : ∀ now file, let o := w.perform now (.command (.load file))
    o.result = .ok () → o.bench.keys.keys = [] ∧ o.bench.machine.input .cskb0 = 0 ∧
      o.bench.machine.input .cskb1 = 0
  refused : ∀ now file, let o := w.perform now (.command (.load file))
    ∀ e, o.result = .error e →
      o.bench.keys = w.keys ∧ o.bench.machine.input = w.machine.input

theorem level_keyed (d : Dsm51) (k : MatrixKey) (down : Bool) :
    (HeldKeys.drive d (.matrix k) down).level k.bit = down ∧
      ∀ b, ¬ k.bit.Same b → (HeldKeys.drive d (.matrix k) down).level b = d.level b := by
  constructor
  · exact (d.level_driveKey (.matrix k) down k.bit).trans (if_pos ⟨rfl, rfl⟩)
  · intro b other
    exact (d.level_driveKey (.matrix k) down b).trans (if_neg other)

/-- A board that has loaded a program has no key down. -/
theorem inputs_of_load {w : Workbench Dsm51} {file : List Byte}
    (ok : (w.load file).result = .ok ()) :
    (w.load file).bench.keys.keys = [] ∧
      (w.load file).bench.machine.input = (Dsm51.new w.machine.format).input := by
  cases accepted : w.accept file with
  | error e =>
    rw [load_of_accept_error accepted] at ok
    cases ok
  | ok rows =>
    have checked := ((accept_eq_ok_iff w file rows).1 accepted).2.2.2
    have loaded := Dsm51.loadsChecked w.machine file checked
    rw [load_of_accept_ok accepted (Prod.ext rfl loaded)]
    exact ⟨rfl, Dsm51.input_load _ file⟩

/-- The bit of a key of the matrix and the key itself have heard the same. -/
theorem level_eq_isHeld (format : ImageFormat) (lister : Lister) (s : Settings) {script : Script}
    (exist : ∀ o ∈ script, ∀ key, o.2.key? = some key → key.Exists) {k : MatrixKey}
    (hk : k ∈ MatrixKey.all) :
    let w := (new (Dsm51.new format) lister s).after script
    w.machine.level k.bit = w.keys.isHeld (.matrix k) := by
  intro w
  refine (level_after _ script (.matrix k)).trans ?_
  refine Eq.trans ?_ (isHeld_after _ script (.matrix k)).symm
  have up : (new (Dsm51.new format) lister s).machine.level k.bit = false :=
    Dsm51.level_new format (.matrix k)
  rw [show (Key.matrix k).bit = k.bit from rfl, up]
  refine lastHeard_congr (fun change announced key about => ?_) false
  have exist : key.Exists := by
    obtain ⟨o, member, asked⟩ | none := asked_of_announced announced about
    · exact exist o member key asked
    · cases none
  rw [Bool.eq_iff_iff, decide_eq_true_iff, beq_iff_eq]
  exact key.same_matrix_iff exist hk

/-- **Matrix keys and keyboard banks correspond.**  Whatever has been asked for, as long as only
keys that exist have been pressed and released, the bit of a key reads as one, wherever its bank is
read, exactly while the key is held; and only a press, a release or a load changes it. -/
theorem matrix_keys_after_new (format : ImageFormat) (lister : Lister) (s : Settings)
    (script : Script) (exist : ∀ o ∈ script, ∀ key, o.2.key? = some key → key.Exists) :
    ((new (Dsm51.new format) lister s).after script).MatrixAgrees := by
  have current := current_after_new (Dsm51.new format) lister s script
  have agree {k : MatrixKey} (hk : k ∈ MatrixKey.all) :=
    level_eq_isHeld format lister s exist hk
  generalize (new (Dsm51.new format) lister s).after script = w at *
  constructor
  case held =>
    intro k hk
    obtain ⟨bank, h⟩ := k.exists_bank
    refine ⟨bank, w.machine.external.devices.get bank, h, reads_device current bank, ?_⟩
    rw [← agree hk, w.machine.get_bank h]
    rfl
  case press =>
    intro now k hk pressed
    exact level_keyed w.machine k true
  case release =>
    intro now k hk released
    -- a release on the matrix is noticed in either mode
    have driven : released = HeldKeys.drive w.machine (.matrix k) false :=
      congrArg (·.bench.machine) (releaseKey_noticed (.inr rfl))
    rw [driven]
    exact level_keyed w.machine k false
  case program => exact Dsm51.input_step w.machine
  case write =>
    intro register bank h v
    exact w.machine.external.write_bank h v
  case reset =>
    intro now o
    exact ⟨rfl, Dsm51.input_clearWorking w.machine⟩
  case loaded =>
    intro now file o ok
    obtain ⟨keys, input⟩ := inputs_of_load ok
    exact ⟨keys, congrFun input .cskb0, congrFun input .cskb1⟩
  case refused =>
    intro now file o e failed
    have same : o.bench = w := ((loadsWhole Dsm51.loadsChecked w file).error e failed).1
    rw [same]
    exact ⟨rfl, rfl⟩

/-- A digit that is held while a key of the other keyboard is pressed and the board is reset. -/
theorem matrix_keys_after_new_digit :
    let script : Script := [(0, .command (.pressKey (.matrix (.digit 3)))),
      (1, .command (.pressKey (.sequential .enter))), (2, .command .reset)]
    let w := (new (Dsm51.new .binary) (Dsm51.lister .binary) {}).after script
    (∀ o ∈ script, ∀ key, o.2.key? = some key → key.Exists) ∧ w.MatrixAgrees ∧
      w.keys.isHeld (.matrix (.digit 3)) = true ∧ ∃ b, w.Reads .cskb0 b ∧ b.bit 3 = true := by
  intro script w
  have exist : ∀ o ∈ script, ∀ key, o.2.key? = some key → key.Exists := by
    intro o member key asked
    simp only [script, List.mem_cons, List.not_mem_nil, or_false] at member
    obtain rfl | rfl | rfl := member
    · cases asked
      show MatrixKey.digit 3 ∈ MatrixKey.all
      decide
    · cases asked
      trivial
    · cases asked
  have agrees : w.MatrixAgrees :=
    matrix_keys_after_new .binary (Dsm51.lister .binary) {} script exist
  have held : w.keys.isHeld (.matrix (.digit 3)) = true := rfl
  obtain ⟨bank, b, cskb0, reads, bit⟩ := agrees.held (.digit 3) (by decide)
  cases cskb0
  exact ⟨exist, agrees, held, b, reads, bit.trans held⟩

end Workbench

end Trainer51
