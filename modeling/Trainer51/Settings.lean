import Trainer51.HeldKeys
import Trainer51.Text.Blank

/-!
# Settings

Settings come in layers: a file in the working directory, a file named on the command line, the
environment, the command line itself.  A layer may leave a setting open; a later layer wins.
-/

namespace Trainer51

/-- A number in decimal digits, possibly after a plus sign, that fits into 64 bits.  Zeros in front
aside, that takes at most twenty digits. -/
def decimal64? (text : String) : Option Nat :=
  let digits := match text.toList with
    | '+' :: ds => ds
    | ds => ds
  let significant := digits.dropWhile (· == '0')
  if digits.isEmpty || !digits.all Char.isDigit || 20 < significant.length then none
  else
    let n := significant.foldl (fun n c => 10 * n + (c.toNat - 48)) 0
    if n ≤ 0xFFFFFFFFFFFFFFFF then some n else none

def KeyRelease.ofName? : String → Option KeyRelease
  | "global" => some .global
  | "per_key" => some .perKey
  | _ => none

def KeyRelease.name : KeyRelease → String
  | .global => "global"
  | .perKey => "per_key"

structure Settings where
  /-- Milliseconds between two ticks of a run. -/
  cadence : Option Nat := none
  /-- Ticks after which a run to a target gives up. -/
  targetLimit : Option Nat := none
  keyRelease : Option KeyRelease := none
  /-- Height of a row of the memory table, in units of the screen. -/
  rowHeight : Option Nat := none
  /-- Height of the visible part of the memory table. -/
  extent : Option Nat := none
  deriving DecidableEq, Repr

namespace Settings

/-! ## Values in effect -/

def defaultCadence : Nat := 500

def effectiveCadence (s : Settings) : Nat := max (s.cadence.getD defaultCadence) 1

def effectiveKeyRelease (s : Settings) : KeyRelease := s.keyRelease.getD .global

def effectiveRowHeight (s : Settings) : Nat := max (s.rowHeight.getD 1) 1

def effectiveExtent (s : Settings) : Nat := s.extent.getD 16

/-! ## Layers -/

/-- The settings of `later` where it has any, else those of `s`. -/
def merge (s later : Settings) : Settings where
  cadence := later.cadence <|> s.cadence
  targetLimit := later.targetLimit <|> s.targetLimit
  keyRelease := later.keyRelease <|> s.keyRelease
  rowHeight := later.rowHeight <|> s.rowHeight
  extent := later.extent <|> s.extent

/-- The variable of the environment for the cadence. -/
def cadenceVariable : String := "I8051EMU_CADENCE_MS"

def keyReleaseVariable : String := "I8051EMU_KEY_RELEASE"

/-- The variables of the environment that are looked at. -/
def variableNames : List String := [cadenceVariable, keyReleaseVariable]

/-- The settings of the environment; a value that makes no sense sets nothing. -/
def ofEnvironment (lookup : String → Option String) : Settings where
  cadence := (lookup cadenceVariable).bind fun v => decimal64? (trimText v)
  keyRelease := (lookup keyReleaseVariable).bind fun v => KeyRelease.ofName? (trimText v)

/-- The settings file in the working directory. -/
def localFile : String := "i8051emu.toml"

/-- The lines of a settings file to start from. -/
def sampleLines : List String :=
  ["# i8051emu configuration",
    "# Place this file at ./i8051emu.toml or pass it with --config",
    "",
    "# Milliseconds between steps while running or running to a target",
    "cadence_ms = 500",
    "",
    "# Stop a run-to-target after this many steps (unbounded when absent)",
    "# run_to_target_limit = 100000",
    "",
    "# \"global\": a pointer-up anywhere releases held keys",
    "# \"per_key\": only a pointer-up on the key itself does",
    "key_release = \"global\"",
    "",
    "# Memory table geometry, in terminal rows",
    "memory_row_height = 1",
    "memory_viewport_extent = 16"]

def sample : String := String.join (sampleLines.map (· ++ "\n"))

end Settings

end Trainer51
