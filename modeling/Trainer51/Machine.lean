import Trainer51.Listing
import Trainer51.Port
import Trainer51.Text.Blank
import Trainer51.Text.Hexadecimal

/-!
# What the front end drives

The front end neither decodes nor executes: everything it knows about the simulated chip comes
through the operations of `Machine`, and the listing of a program from a `Lister`.
-/

namespace Trainer51

/-! ## Memory spaces -/

/-- The address spaces that the memory table can show. -/
inductive MemorySpace where
  /-- Program memory. -/
  | rom
  /-- Internal memory. -/
  | ram
  /-- Special function registers. -/
  | sfr
  /-- External data memory. -/
  | xram
  deriving DecidableEq, Repr

namespace MemorySpace

def all : List MemorySpace := [rom, ram, sfr, xram]

def name : MemorySpace → String
  | rom => "ROM"
  | ram => "RAM"
  | sfr => "SFR"
  | xram => "XRAM"

/-- Address of the first cell. -/
def base : MemorySpace → Word
  | sfr => 0x80
  | _ => 0

/-- The next space in display order, the first after the last. -/
def next : MemorySpace → MemorySpace
  | rom => ram
  | ram => sfr
  | sfr => xram
  | xram => rom

/-- The space of a name in either case, blanks around it ignored. -/
def ofName? (name : String) : Option MemorySpace :=
  all.find? fun space => space.name == (trimText name).map Char.toUpper

end MemorySpace

/-! ## Inputs -/

/-- The registers whose bits the front end may set and clear. -/
inductive InputRegister where
  /-- Matrix keyboard, low bank. -/
  | cskb0
  /-- Matrix keyboard, high bank. -/
  | cskb1
  /-- The pins of port 3. -/
  | port3
  deriving DecidableEq, Repr

def InputRegister.name : InputRegister → String
  | cskb0 => "CSKB0"
  | cskb1 => "CSKB1"
  | port3 => "P3"

/-- One bit of an input register; positions count modulo eight. -/
structure InputBit where
  register : InputRegister
  position : Nat
  deriving DecidableEq, Repr

namespace InputBit

def mask (b : InputBit) : Byte := Byte.mask b.position

def text (b : InputBit) : String := b.register.name ++ "." ++ toString b.position

end InputBit

/-! ## Readings -/

/-- The registers that the front end shows. -/
structure Registers where
  pc : Word := 0
  a : Byte := 0
  b : Byte := 0
  sp : Byte := 0
  dptr : Word := 0
  psw : Byte := 0
  /-- `R0` to `R7` of the selected bank. -/
  bank : List Byte := List.replicate 8 0
  ie : Byte := 0
  ip : Byte := 0
  tcon : Byte := 0
  tmod : Byte := 0
  deriving DecidableEq, Repr

/-- The peripheral registers of a trainer. -/
inductive Device where
  /-- Display column select, which also scans the sequential keyboard. -/
  | csds
  /-- Display segments. -/
  | csdb
  /-- Matrix keyboard, keys 0 to 7. -/
  | cskb0
  /-- Matrix keyboard, keys 8 and 9, the arrows, Esc and Enter. -/
  | cskb1
  deriving DecidableEq, Repr

namespace Device

def all : List Device := [csds, csdb, cskb0, cskb1]

def name : Device → String
  | csds => "CSDS"
  | csdb => "CSDB"
  | cskb0 => "CSKB0"
  | cskb1 => "CSKB1"

end Device

/-- A byte for each peripheral register. -/
structure DeviceBytes where
  csds : Byte := 0
  csdb : Byte := 0
  cskb0 : Byte := 0
  cskb1 : Byte := 0
  deriving DecidableEq, Repr

namespace DeviceBytes

def get (d : DeviceBytes) : Device → Byte
  | .csds => d.csds
  | .csdb => d.csdb
  | .cskb0 => d.cskb0
  | .cskb1 => d.cskb1

def toList (d : DeviceBytes) : List Byte := Device.all.map d.get

end DeviceBytes

/-! ## Failures -/

inductive MachineError where
  | invalidImage (reason : String)
  | illegalOpcode (pc : Word) (opcode : Byte)
  | fault (pc : Word) (reason : String)
  deriving DecidableEq, Repr

def MachineError.message : MachineError → String
  | invalidImage reason => "invalid program image: " ++ reason
  | illegalOpcode pc opcode =>
    "illegal opcode " ++ Hexadecimal.byte opcode ++ "h at " ++ Hexadecimal.word pc ++ "h"
  | fault pc reason => "engine fault at " ++ Hexadecimal.word pc ++ "h: " ++ reason

/-- Why a program image has no listing. -/
inductive ListingError where
  | empty
  | image (reason : String)
  deriving DecidableEq, Repr

def ListingError.message : ListingError → String
  | empty => "program image contains no data"
  | image reason => "malformed program image: " ++ reason

/-! ## Operations -/

/-- A simulated machine.  Reading it does not change it. -/
class Machine (M : Type) where
  /-- Execute one instruction.  A step that fails may still have changed the machine. -/
  step : M → M × Except MachineError Unit
  /-- Whether the machine would load an image. -/
  check : M → List Byte → Except MachineError Unit
  /-- Load an image into program memory. -/
  load : M → List Byte → M × Except MachineError Unit
  /-- Clear program memory and everything else. -/
  clearAll : M → M
  /-- Clear registers and working memory; program memory stays. -/
  clearWorking : M → M
  /-- Set or clear an input bit. -/
  drive : M → InputBit → Bool → M
  /-- Bring everything that follows from the inputs up to date. -/
  refresh : M → M
  /-- Address of the next instruction. -/
  pc : M → Word
  /-- The cells of a space, from its base address on. -/
  memory : M → MemorySpace → Array Byte
  registers : M → Registers
  /-- The pins of the ports. -/
  ports : M → PortBytes
  devices : M → DeviceBytes
  /-- The segments of each display digit, the least significant digit first. -/
  display : M → List Byte

/-- What turns a program image into the rows of its listing. -/
abbrev Lister := List Byte → Except ListingError (List Row)

end Trainer51
