import Trainer51.Change

/-!
# Redrawing

The screen is drawn once for any number of changes, and once at the start.
-/

namespace Trainer51

structure Redraw where
  /-- Whether the screen shows something that is no longer so. -/
  due : Bool := true
  deriving DecidableEq, Repr

namespace Redraw

/-- Take notice of changes. -/
def note (r : Redraw) (changes : List Change) : Redraw := ⟨r.due || !changes.isEmpty⟩

/-- Ask for a picture though nothing has changed. -/
def request (_ : Redraw) : Redraw := ⟨true⟩

/-- Whether a picture is due; the caller is about to draw it. -/
def take (r : Redraw) : Redraw × Bool := (⟨false⟩, r.due)

end Redraw

end Trainer51
