import Trainer51.Byte

/-!
# Numbers in hexadecimal

Upper-case digits, either at a fixed width or without leading zeros.
-/

namespace Trainer51.Hexadecimal

/-- The digit for `n`, counted modulo sixteen. -/
def digit (n : Nat) : Char :=
  if n % 16 < 10 then Char.ofNat (48 + n % 16) else Char.ofNat (55 + n % 16)

/-- The last `width` digits of `n`, leading zeros included. -/
def digits : (width : Nat) → (n : Nat) → List Char
  | 0, _ => []
  | width + 1, n => digits width (n / 16) ++ [digit n]

/-- A byte at its full width. -/
def byte (b : Byte) : String := String.ofList (digits 2 b.toNat)

/-- A word at its full width. -/
def word (w : Word) : String := String.ofList (digits 4 w.toNat)

/-- `n` without leading zeros; its lowest sixteen bits count. -/
def plain (n : Nat) : String :=
  match (digits 4 n).dropWhile (· == '0') with
  | [] => "0"
  | ds => String.ofList ds

end Trainer51.Hexadecimal
