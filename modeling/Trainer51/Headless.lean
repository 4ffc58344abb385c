import Trainer51.Text.Padding
import Trainer51.Workbench

/-!
# Running without a screen

A program is stepped through a number of times, and every step leaves a line: the row that execution
has reached.  Registers follow at the end, and after every step if asked for.
-/

namespace Trainer51

namespace Headless

/-- The registers and the arithmetic flags, on two lines. -/
def registerLines (p : Panel) : List String :=
  let flag (position : Nat) := if p.flags.get .psw position then "1" else "0"
  ["  " ++ " ".intercalate p.chipTexts ++ "  C=" ++ flag 7 ++ " OV=" ++ flag 2 ++ " AC=" ++ flag 6
      ++ " P=" ++ flag 0,
    "  " ++ " ".intercalate p.bankTexts]

variable {M : Type}

/-- The row that is about to be executed. -/
def rowLine (w : Workbench M) : String :=
  match w.listing.covering? w.cursor.current with
  | some row => Hexadecimal.word row.address ++ ": " ++ padRight 10 row.byteText ++ " " ++ row.text
  | none => Hexadecimal.word w.cursor.current ++ ": (not in listing)"

/-- Where and after how many instructions execution ended, and the registers there. -/
def endLines (w : Workbench M) (what : String) (count : Nat) (reason : String) : List String :=
  (what ++ " at 0x" ++ Hexadecimal.word w.cursor.current ++ " after " ++ toString count
    ++ " instructions" ++ reason) :: registerLines w.panel

variable [Machine M]

/-- Step `fuel` more times, `count` having been taken.  The lines so far are in `lines`, the last
one first. -/
def runFrom (trace : Bool) (count : Nat) (w : Workbench M) (lines : List String) :
    (fuel : Nat) → List String
  | 0 => lines.reverse ++ endLines w "Stopped" count ""
  | fuel + 1 =>
    let lines := rowLine w :: lines
    let o := w.step
    match o.result with
    | .error e => lines.reverse ++ endLines o.bench "CPU halted" (count + 1) (": " ++ e.message)
    | .ok () =>
      let lines := if trace then (registerLines o.bench.panel).reverse ++ lines else lines
      runFrom trace (count + 1) o.bench lines fuel

/-- The lines that stepping a loaded program up to `limit` times leaves. -/
def transcript (w : Workbench M) (limit : Nat) (trace : Bool) : List String :=
  runFrom trace 0 w [] limit

end Headless

end Trainer51
