import Trainer51.Image
import Trainer51.Text.Hexadecimal
import Trainer51.Text.Blank
import Trainer51.Text.Utf8

/-!
# Intel HEX records

An Intel HEX file has one record a line: a colon, then digit pairs for the payload length, the
address, the record type, the payload and a byte that makes the sum of all of them zero.
-/

namespace Trainer51

/-- What a well-formed record asks for. -/
inductive Record where
  | data (address : Word) (payload : List Byte)
  | endOfFile
  /-- A start address, or the selection of the first 64K. -/
  | ignored
  deriving DecidableEq, Repr

namespace Record

/-- The value of a hexadecimal digit of either case. -/
def digit? (c : Char) : Option Nat :=
  if '0' ≤ c ∧ c ≤ '9' then some (c.toNat - 48)
  else if 'A' ≤ c ∧ c ≤ 'F' then some (c.toNat - 55)
  else if 'a' ≤ c ∧ c ≤ 'f' then some (c.toNat - 87)
  else none

/-- The value of a digit pair, in which a plus sign may stand for the first digit. -/
def pair? (high low : Char) : Option Byte :=
  if high = '+' then (digit? low).map UInt8.ofNat
  else
    match digit? high, digit? low with
    | some h, some l => some (UInt8.ofNat (16 * h + l))
    | _, _ => none

/-- The bytes that digit pairs stand for, after the bytes `read`, last first. -/
def pairsAfter? (read : List Byte) : List Char → Option (List Byte)
  | [] => some read.reverse
  | high :: low :: rest =>
    match pair? high low with
    | some b => pairsAfter? (b :: read) rest
    | none => none
  | [_] => none

/-- How many bytes the characters take up. -/
def encodedSize (cs : List Char) : Nat := cs.foldl (fun n c => n + c.utf8Size) 0

/-- The bytes of a record's digits.  An odd number of bytes is cut short, whatever they say. -/
def bytes (digits : List Char) : Except RecordFault (List Byte) :=
  if encodedSize digits % 2 ≠ 0 then .error .truncated
  else if digits.any (127 < ·.toNat) then .error .badDigit
  else
    match pairsAfter? [] digits with
    | some bs => .ok bs
    | none => .error .badDigit

/-- The record of a type and payload whose length and checksum are right. -/
def ofPayload (address : Word) (kind : Byte) (payload : List Byte) : Except RecordFault Record :=
  if kind = 0 then
    if 0x10000 < address.toNat + payload.length then .error .outOfRange
    else .ok (.data address payload)
  else if kind = 1 then .ok .endOfFile
  else if kind = 2 ∨ kind = 4 then
    if payload.any (· ≠ 0) then .error .outOfRange else .ok .ignored
  else if kind = 3 ∨ kind = 5 then .ok .ignored
  else .error (.unsupported kind)

/-- The record that the bytes of a line stand for. -/
def ofBytes (bs : List Byte) : Except RecordFault Record :=
  match bs with
  | count :: high :: low :: kind :: rest =>
    if rest.length ≠ count.toNat + 1 then .error .truncated
    else
      let sum := bs.foldl (· + ·) 0
      let found := rest.getLastD 0
      if sum ≠ 0 then .error (.checksum (found - sum) found)
      else ofPayload (Word.ofBytes high low) kind (rest.take count.toNat)
  | _ => .error .truncated

/-- The record on a line that is not blank. -/
def ofLine (line : List Char) : Except RecordFault Record :=
  match line with
  | ':' :: digits =>
    match bytes digits with
    | .ok bs => ofBytes bs
    | .error fault => .error fault
  | _ => .error .missingColon

end Record

/-- The lines of a text; the last one is what follows the last line feed. -/
def splitLines (text : List Byte) : List (List Byte) :=
  text.foldr (fun b lines =>
    if b = 0x0A then [] :: lines
    else
      match lines with
      | [] => [[b]]
      | line :: lines => (b :: line) :: lines) [[]]

namespace Image

/-- Read records from line number `line` on into `image`, up to the end-of-file record. -/
def readRecords (image : Image) (line : Nat) : List (List Byte) → Except ImageError Image
  | [] => .ok image
  | text :: rest =>
    let text := trimBlanks (Utf8.decode text)
    if text.isEmpty then readRecords image (line + 1) rest
    else
      match Record.ofLine text with
      | .ok (.data address payload) => readRecords (image.write address payload) (line + 1) rest
      | .ok .ignored => readRecords image (line + 1) rest
      | .ok .endOfFile => .ok image
      | .error fault => .error (.record line fault)

/-- The image that an Intel HEX text describes. -/
def ofIntelHex (text : List Byte) : Except ImageError Image :=
  match readRecords empty 1 (splitLines text) with
  | .ok image => if image.toList.isEmpty then .error .empty else .ok image
  | .error e => .error e

/-- The image that holds a binary dump from address zero on. -/
def ofBinary (dump : List Byte) : Except ImageError Image :=
  if dump.isEmpty then .error .empty
  else if 0x10000 < dump.length then .error (.tooLarge dump.length)
  else .ok (empty.write 0 dump)

end Image

/-- How a file describes an image. -/
inductive ImageFormat where
  /-- Intel HEX when the first byte that is not ASCII white space is a colon, else binary. -/
  | auto
  | intelHex
  | binary
  deriving DecidableEq, Repr

/-- Space, tab, line feed, form feed or carriage return. -/
def isAsciiBlank (b : Byte) : Bool := b == 32 || b == 9 || b == 10 || b == 12 || b == 13

/-- Whether a file in automatic format is taken for Intel HEX. -/
def looksLikeIntelHex (file : List Byte) : Bool := file.find? (!isAsciiBlank ·) == some 58

/-- The image that a file describes. -/
def Image.parse (format : ImageFormat) (file : List Byte) : Except ImageError Image :=
  match format with
  | .intelHex => ofIntelHex file
  | .binary => ofBinary file
  | .auto => if looksLikeIntelHex file then ofIntelHex file else ofBinary file

/-! ## Messages -/

def RecordFault.message : RecordFault → String
  | .missingColon => "record does not start with ':'"
  | .badDigit => "invalid hex digit"
  | .truncated => "record is truncated"
  | .checksum expected found =>
    "checksum mismatch (expected " ++ Hexadecimal.byte expected ++ "h, found "
      ++ Hexadecimal.byte found ++ "h)"
  | .unsupported kind => "unsupported record type " ++ Hexadecimal.byte kind ++ "h"
  | .outOfRange => "data extends past the 64K program space"

def ImageError.message : ImageError → String
  | .empty => "image is empty"
  | .record line fault => "line " ++ toString line ++ ": " ++ fault.message
  | .tooLarge size => "binary image of " ++ toString size ++ " bytes does not fit in 64K"

end Trainer51
