import Trainer51.Keys

/-!
# Changes

What the front end announces, so that whoever shows it knows that something is different.
-/

namespace Trainer51

inductive RunMode where
  | idle
  | running
  | steppingToTarget
  deriving DecidableEq, Repr

def RunMode.text : RunMode → String
  | idle => "idle"
  | running => "running"
  | steppingToTarget => "stepping to target"

inductive Change where
  /-- A program with that many rows has been loaded. -/
  | loaded (rows : Nat)
  | stepped (pc : Word)
  | modeChanged (mode : RunMode)
  | spaceChanged (space : MemorySpace)
  | keyPressed (key : Key)
  | keyReleased (key : Key)
  | reset
  | refreshed
  | halted (error : MachineError)
  | rowSelected (address : Word)
  | scrolled
  deriving DecidableEq, Repr

end Trainer51
