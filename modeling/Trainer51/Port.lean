import Trainer51.Byte

/-!
# Ports

The four 8-bit ports of the chip and a byte for each.
-/

namespace Trainer51

inductive Port where
  | p0 | p1 | p2 | p3
  deriving DecidableEq, Repr

/-- A byte for each port. -/
structure PortBytes where
  p0 : Byte
  p1 : Byte
  p2 : Byte
  p3 : Byte
  deriving DecidableEq, Repr

namespace Port

def all : List Port := [p0, p1, p2, p3]

/-- The address of the port's latch. -/
def address : Port → Byte
  | p0 => 0x80
  | p1 => 0x90
  | p2 => 0xA0
  | p3 => 0xB0

/-- The port whose latch is at an address. -/
def ofAddress? (a : Byte) : Option Port := all.find? (·.address == a)

def name : Port → String
  | p0 => "P0"
  | p1 => "P1"
  | p2 => "P2"
  | p3 => "P3"

end Port

namespace PortBytes

/-- The same byte for every port. -/
def uniform (b : Byte) : PortBytes := ⟨b, b, b, b⟩

def get (bytes : PortBytes) : Port → Byte
  | .p0 => bytes.p0
  | .p1 => bytes.p1
  | .p2 => bytes.p2
  | .p3 => bytes.p3

def set (bytes : PortBytes) (port : Port) (b : Byte) : PortBytes :=
  match port with
  | .p0 => { bytes with p0 := b }
  | .p1 => { bytes with p1 := b }
  | .p2 => { bytes with p2 := b }
  | .p3 => { bytes with p3 := b }

def toList (bytes : PortBytes) : List Byte := Port.all.map bytes.get

theorem get_set (bytes : PortBytes) (p q : Port) (b : Byte) :
    (bytes.set p b).get q = if p = q then b else bytes.get q := by
  cases p <;> cases q <;> rfl

end PortBytes

end Trainer51
