import Trainer51.Keys

/-!
# Held keys

Pressing a key sets its input bit, releasing it clears the bit.  A sequential key is only noticed
while its column is selected.
-/

namespace Trainer51

/-- How key releases are delivered. -/
inductive KeyRelease where
  /-- A pointer released anywhere releases all held keys; a release is always noticed. -/
  | global
  /-- Only a release on the key itself counts, and it is noticed as a press is. -/
  | perKey
  deriving DecidableEq, Repr

structure HeldKeys where
  mode : KeyRelease := .global
  /-- In ascending order, each key once. -/
  keys : List Key := []
  deriving DecidableEq, Repr

namespace HeldKeys

variable {M : Type} [Machine M]

def isHeld (held : HeldKeys) (key : Key) : Bool := held.keys.contains key

/-- Whether a sequential key's column is selected; the matrix is always listened to. -/
def listening (m : M) : Key → Bool
  | .sequential key => (Machine.devices m).csds.bit key.column
  | .matrix _ => true

/-- Drive a key's input bit and let the machine catch up. -/
def drive (m : M) (key : Key) (down : Bool) : M := Machine.refresh (Machine.drive m key.bit down)

/-- Press a key; nothing if the press goes unnoticed. -/
def press? (held : HeldKeys) (m : M) (key : Key) : Option (HeldKeys × M) :=
  if listening m key then
    some ({ held with keys := key.insertInOrder held.keys }, drive m key true)
  else none

/-- Release a key; nothing if the release goes unnoticed. -/
def release? (held : HeldKeys) (m : M) (key : Key) : Option (HeldKeys × M) :=
  if held.mode = .global || listening m key then
    some ({ held with keys := held.keys.filter (· != key) }, drive m key false)
  else none

/-- Release every held key on a pointer released anywhere, as far as the mode asks for it; the keys
released. -/
def releaseAll (held : HeldKeys) (m : M) : HeldKeys × M × List Key :=
  match held.mode with
  | .perKey => (held, m, [])
  | .global => ({ held with keys := [] }, held.keys.foldl (drive · · false) m, held.keys)

/-- Forget held keys when the inputs have been cleared already. -/
def forget (held : HeldKeys) : HeldKeys := { held with keys := [] }

end HeldKeys

end Trainer51
