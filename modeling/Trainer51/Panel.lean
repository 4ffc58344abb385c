import Trainer51.MemoryWindow
import Trainer51.Machine

/-!
# The hardware panel

What the front end shows of a machine: flags by name, ports bit by bit, display digits, registers
and one memory space.  The panel is always made from a complete reading of the machine.
-/

namespace Trainer51

/-! ## Flags -/

/-- The registers whose bits have names. -/
inductive ControlRegister where
  | ie | ip | psw | tcon | tmod
  deriving DecidableEq, Repr

namespace ControlRegister

def all : List ControlRegister := [ie, ip, psw, tcon, tmod]

def name : ControlRegister → String
  | ie => "IE"
  | ip => "IP"
  | psw => "PSW"
  | tcon => "TCON"
  | tmod => "TMOD"

end ControlRegister

/-- A named bit. -/
structure Flag where
  register : ControlRegister
  position : Nat
  name : String
  /-- Heading in the flags table; both timers have the same four in TMOD. -/
  label : String
  deriving DecidableEq, Repr

namespace Flag

/-- Changes whenever a flag of the table changes its meaning. -/
def tableVersion : Nat := 1

/-- Bits that are headed by their names. -/
def plain (register : ControlRegister) (bits : List (Nat × String)) : List Flag :=
  bits.map fun (position, name) => ⟨register, position, name, name⟩

/-- All flags, register after register, the highest bit first. -/
def table : List Flag :=
  plain .ie [(7, "EA"), (4, "ES"), (3, "ET1"), (2, "EX1"), (1, "ET0"), (0, "EX0")]
    ++ plain .ip [(4, "PS"), (3, "PT1"), (2, "PX1"), (1, "PT0"), (0, "PX0")]
    ++ plain .psw [(7, "C"), (6, "AC"), (5, "F0"), (4, "RS1"), (3, "RS0"), (2, "OV"), (1, "F1"),
      (0, "P")]
    ++ plain .tcon [(7, "TF1"), (6, "TR1"), (5, "TF0"), (4, "TR0"), (3, "IE1"), (2, "IT1"),
      (1, "IE0"), (0, "IT0")]
    ++ [⟨.tmod, 7, "T1_GATE", "GATE"⟩, ⟨.tmod, 6, "T1_CT", "C/T"⟩, ⟨.tmod, 5, "T1_M1", "M1"⟩,
      ⟨.tmod, 4, "T1_M0", "M0"⟩, ⟨.tmod, 3, "T0_GATE", "GATE"⟩, ⟨.tmod, 2, "T0_CT", "C/T"⟩,
      ⟨.tmod, 1, "T0_M1", "M1"⟩, ⟨.tmod, 0, "T0_M0", "M0"⟩]

end Flag

/-- The values of the flags, in the order of the table. -/
structure FlagValues where
  values : List Bool := List.replicate 35 false
  deriving DecidableEq, Repr

namespace FlagValues

/-- The flags of the control registers' values. -/
def ofRegisters (value : ControlRegister → Byte) : FlagValues :=
  ⟨Flag.table.map fun f => (value f.register).bit f.position⟩

/-- Every flag with its value. -/
def toList (flags : FlagValues) : List (Flag × Bool) := Flag.table.zip flags.values

/-- The value of one bit of a register; false if it has no name. -/
def get (flags : FlagValues) (register : ControlRegister) (position : Nat) : Bool :=
  flags.toList.any fun (f, on) => f.register == register && f.position == position && on

/-- The names of the flags that are set. -/
def names (flags : FlagValues) : List String :=
  (flags.toList.filter (·.2)).map (·.1.name)

/-- The bits of one register, highest first, with nothing where a bit has no name. -/
def row (flags : FlagValues) (register : ControlRegister) : List (Option (Flag × Bool)) :=
  [7, 6, 5, 4, 3, 2, 1, 0].map fun position =>
    flags.toList.find? fun (f, _) => f.register == register && f.position == position

end FlagValues

/-! ## Registers bit by bit -/

/-- A named byte as bits, highest first. -/
structure BitRow where
  name : String
  bits : List Bool
  deriving DecidableEq, Repr

namespace BitRow

def ofByte (name : String) (b : Byte) : BitRow := ⟨name, b.bits⟩

def value (row : BitRow) : Byte := Byte.ofBits row.bits

/-- The ports, as many as there are bytes for. -/
def ofPorts (bytes : List Byte) : List BitRow := List.zipWith (ofByte ·.name ·) Port.all bytes

def ofDevices (d : DeviceBytes) : List BitRow := Device.all.map fun x => ofByte x.name (d.get x)

end BitRow

/-! ## Display digits -/

/-- The segments of one display digit. -/
structure Digit where
  /-- Segments a to g. -/
  segments : List Bool
  point : Bool
  deriving DecidableEq, Repr

namespace Digit

/-- Bit 0 is segment a, bit 6 segment g and bit 7 the decimal point. -/
def ofByte (b : Byte) : Digit := ⟨[0, 1, 2, 3, 4, 5, 6].map b.bit, b.bit 7⟩

def toByte (d : Digit) : Byte := Byte.ofBits (d.point :: d.segments.reverse)

/-- Whether nothing is lit. -/
def isBlank (d : Digit) : Bool := d.toByte == 0

/-- The patterns that show a character. -/
def glyphs : List (Byte × Char) :=
  [(0x3F, '0'), (0x06, '1'), (0x5B, '2'), (0x4F, '3'), (0x66, '4'), (0x6D, '5'), (0x7D, '6'),
    (0x07, '7'), (0x7F, '8'), (0x6F, '9'), (0x77, 'A'), (0x7C, 'b'), (0x39, 'C'), (0x5E, 'd'),
    (0x79, 'E'), (0x71, 'F'), (0x76, 'H'), (0x38, 'L'), (0x73, 'P'), (0x3E, 'U'), (0x40, '-'),
    (0x00, ' ')]

/-- The character that the segments show, whatever the decimal point. -/
def glyph? (d : Digit) : Option Char :=
  (glyphs.find? (·.1 == d.toByte &&& 0x7F)).map (·.2)

/-- The digits from left to right; the bytes come from right to left. -/
def ofBytes (bytes : List Byte) : List Digit := bytes.reverse.map ofByte

end Digit

/-! ## Peripheral switches -/

/-- Which of the peripherals that port 1 switches are on. -/
structure Enables where
  display : Bool := false
  buzzer : Bool := false
  led : Bool := false
  deriving DecidableEq, Repr

/-- A low bit switches its peripheral on. -/
def Enables.ofByte (b : Byte) : Enables := ⟨!b.bit 6, !b.bit 5, !b.bit 7⟩

/-! ## Working registers -/

/-- A register with its value, shown in two or four digits. -/
structure KeyRegister where
  name : String
  width : Nat
  value : Word
  deriving DecidableEq, Repr

namespace KeyRegister

def byte (name : String) (b : Byte) : KeyRegister := ⟨name, 2, b.toUInt16⟩

def word (name : String) (w : Word) : KeyRegister := ⟨name, 4, w⟩

def text (r : KeyRegister) : String :=
  r.name ++ "=" ++ String.ofList (Hexadecimal.digits r.width r.value.toNat)

/-- The registers of the chip, then the selected bank. -/
def ofRegisters (r : Registers) : List KeyRegister :=
  [word "PC" r.pc, byte "A" r.a, byte "B" r.b, byte "SP" r.sp, word "DPTR" r.dptr,
      byte "PSW" r.psw]
    ++ r.bank.zipIdx.map fun (b, n) => byte ("R" ++ toString n) b

end KeyRegister

/-! ## Memory -/

structure MemoryCell where
  address : Word
  value : Byte
  deriving DecidableEq, Repr

/-- The cells of a memory space, the first at the base address of the space. -/
structure MemoryTable where
  space : MemorySpace := .rom
  bytes : Array Byte := #[]
  deriving DecidableEq, Repr

namespace MemoryTable

def size (t : MemoryTable) : Nat := t.bytes.size

/-- The cell at a position of the table. -/
def cell (t : MemoryTable) (i : Nat) (b : Byte) : MemoryCell := ⟨t.space.base + UInt16.ofNat i, b⟩

def cells (t : MemoryTable) : List MemoryCell := t.bytes.toList.zipIdx.map fun (b, i) => t.cell i b

/-- The cells from position `first` up to `past`. -/
def slice (t : MemoryTable) (first past : Nat) : List MemoryCell :=
  ((t.bytes.extract first past).toList.zipIdx first).map fun (b, i) => t.cell i b

/-- The cells that a window shows. -/
def visible (t : MemoryTable) (w : MemoryWindow) : List MemoryCell := t.slice w.first w.past

/-- The last cell. -/
def last? (t : MemoryTable) : Option MemoryCell := t.bytes.back?.map (t.cell (t.size - 1))

end MemoryTable

/-! ## The panel -/

/-- A complete reading of a machine, of its memory one space. -/
structure Reading where
  pc : Word := 0
  registers : Registers := {}
  ports : PortBytes := .uniform 0
  devices : DeviceBytes := {}
  display : List Byte := []
  space : MemorySpace := .rom
  memory : Array Byte := #[]
  deriving DecidableEq, Repr

def Reading.take {M : Type} [Machine M] (m : M) (space : MemorySpace) : Reading where
  pc := Machine.pc m
  registers := Machine.registers m
  ports := Machine.ports m
  devices := Machine.devices m
  display := Machine.display m
  space := space
  memory := Machine.memory m space

structure Panel where
  address : Word := 0
  flags : FlagValues := {}
  ports : List BitRow := []
  devices : List BitRow := []
  registers : List KeyRegister := []
  digits : List Digit := []
  enables : Enables := {}
  memory : MemoryTable := {}
  deriving DecidableEq, Repr

namespace Panel

/-- The texts of the chip's own registers. -/
def chipTexts (p : Panel) : List String := (p.registers.take 6).map (·.text)

/-- The texts of the registers of the selected bank. -/
def bankTexts (p : Panel) : List String := (p.registers.drop 6).map (·.text)

end Panel

/-- The value of a control register in a reading. -/
def Registers.control (r : Registers) : ControlRegister → Byte
  | .ie => r.ie
  | .ip => r.ip
  | .psw => r.psw
  | .tcon => r.tcon
  | .tmod => r.tmod

/-- The panel of a reading. -/
def Panel.ofReading (r : Reading) : Panel where
  address := r.pc
  flags := .ofRegisters r.registers.control
  ports := BitRow.ofPorts r.ports.toList
  devices := BitRow.ofDevices r.devices
  registers := KeyRegister.ofRegisters r.registers
  digits := Digit.ofBytes r.display
  enables := .ofByte r.ports.p1
  memory := ⟨r.space, r.memory⟩

end Trainer51
