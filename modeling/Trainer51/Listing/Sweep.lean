import Trainer51.Image
import Trainer51.Instruction.Text
import Trainer51.Listing

/-!
# Listing an image

Each run of an image is read from its first byte on, instruction after instruction.  Bytes at the
end of a run that start an instruction but do not complete it are listed one a row, as data.
-/

namespace Trainer51

/-- The instruction that starts with `bytes`, missing arguments read as zero. -/
def Fetch.ofBytes (address : Word) (bytes : List Byte) : Fetch :=
  ⟨address, bytes.getD 0 0, bytes.getD 1 0, bytes.getD 2 0⟩

/-- The row of a complete instruction. -/
def Row.ofInstruction (address : Word) (bytes : List Byte) : Row :=
  ⟨address, bytes, (Fetch.ofBytes address bytes).decode.text⟩

/-- The row of a byte that belongs to no instruction. -/
def Row.ofData (address : Word) (b : Byte) : Row := ⟨address, [b], dataText b⟩

/-- How far a run has been read. -/
structure Sweep where
  /-- The finished rows, last first. -/
  rows : List Row
  /-- The address of the first pending byte. -/
  start : Word
  /-- The bytes of the instruction being read. -/
  pending : List Byte

namespace Sweep

/-- Read one more byte; it may complete an instruction. -/
def next (s : Sweep) (b : Byte) : Sweep :=
  let bytes := s.pending ++ [b]
  if bytes.length = opcodeLength (bytes.headD 0) then
    ⟨Row.ofInstruction s.start bytes :: s.rows, s.start + UInt16.ofNat bytes.length, []⟩
  else { s with pending := bytes }

/-- End the run: what is pending is data. -/
def finish (s : Sweep) : List Row :=
  s.rows.reverse ++ s.pending.zipIdx.map fun (b, i) => Row.ofData (s.start + UInt16.ofNat i) b

end Sweep

/-- The rows that list a run. -/
def Run.rows (run : Run) : List Row := (run.bytes.foldl Sweep.next ⟨[], run.start, []⟩).finish

/-- The rows that list an image, run after run. -/
def Image.rows (image : Image) : List Row := image.runs.flatMap Run.rows

end Trainer51
