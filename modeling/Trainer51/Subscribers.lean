/-!
# Subscribers

Listeners come and go; what is published reaches the ones that are subscribed then, in the order in
which they subscribed.  A number is never given to two listeners.
-/

namespace Trainer51

structure Subscribers where
  /-- How many numbers have been given out. -/
  issued : Nat := 0
  /-- The numbers of the subscribed listeners, ascending. -/
  ids : List Nat := []
  deriving DecidableEq, Repr

namespace Subscribers

/-- Add a listener; its number. -/
def subscribe (s : Subscribers) : Subscribers × Nat :=
  ({ issued := s.issued + 1, ids := s.ids ++ [s.issued + 1] }, s.issued + 1)

/-- Remove a listener; whether it was subscribed. -/
def unsubscribe (s : Subscribers) (id : Nat) : Subscribers × Bool :=
  ({ s with ids := s.ids.filter (· != id) }, s.ids.contains id)

/-- What publishing `message` delivers, to whom. -/
def publish {α : Type} (s : Subscribers) (message : α) : List (Nat × α) :=
  s.ids.map (·, message)

def size (s : Subscribers) : Nat := s.ids.length

def isEmpty (s : Subscribers) : Bool := s.ids.isEmpty

end Subscribers

end Trainer51
