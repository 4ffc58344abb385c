import Trainer51.Text.Hexadecimal

/-!
# Program listings

The rows that show a program, one instruction or data byte a row, and the two marks on them: where
execution is and which row the user picked.
-/

namespace Trainer51

/-- One line of the listing. -/
structure Row where
  address : Word
  bytes : List Byte
  text : String
  deriving DecidableEq, Repr

namespace Row

/-- The first byte. -/
def opcode (row : Row) : Byte := row.bytes.headD 0

def arg1? (row : Row) : Option Byte := row.bytes[1]?

def arg2? (row : Row) : Option Byte := row.bytes[2]?

/-- The bytes in hexadecimal, separated by spaces. -/
def byteText (row : Row) : String := " ".intercalate (row.bytes.map Hexadecimal.byte)

/-- Whether an address falls on one of the row's bytes; rows do not wrap at the end of memory. -/
def covers (row : Row) (a : Word) : Bool :=
  row.address.toNat ≤ a.toNat && a.toNat < row.address.toNat + row.bytes.length

end Row

/-- The listing of the loaded program. -/
structure Listing where
  rows : Array Row := #[]
  deriving DecidableEq, Repr

namespace Listing

def ofRows (rows : List Row) : Listing := ⟨rows.toArray⟩

def size (listing : Listing) : Nat := listing.rows.size

def isEmpty (listing : Listing) : Bool := listing.rows.isEmpty

/-- The last position whose row starts at `a`. -/
def index? (listing : Listing) (a : Word) : Option Nat :=
  (listing.rows.zipIdx.reverse.find? (·.1.address == a)).map (·.2)

/-- The last row that starts at `a`. -/
def at? (listing : Listing) (a : Word) : Option Row :=
  (listing.index? a).bind (listing.rows[·]?)

/-- Of two rows the one that starts nearer below `a`; the later one if both start together. -/
def nearer (a : Word) (best : Option Row) (row : Row) : Option Row :=
  if row.address ≤ a ∧ best.all (·.address ≤ row.address) then some row else best

/-- The last row that starts at or before `a`, if `a` is one of its bytes. -/
def covering? (listing : Listing) (a : Word) : Option Row :=
  (listing.rows.foldl (nearer a) none).filter (·.covers a)

/-- The position of the row that an address falls on. -/
def position? (listing : Listing) (a : Word) : Option Nat :=
  (listing.covering? a).bind fun row => listing.index? row.address

def firstAddress? (listing : Listing) : Option Word := listing.rows[0]?.map (·.address)

end Listing

/-- The marks on the listing.  They move independently. -/
structure Cursor where
  /-- The next instruction to execute. -/
  current : Word := 0
  /-- The row that run-to-target aims for. -/
  selected : Option Word := none
  deriving DecidableEq, Repr

end Trainer51
