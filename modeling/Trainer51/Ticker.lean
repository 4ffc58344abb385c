/-!
# Run timers

A ticker is due at a deadline; whoever polls it then gets one tick, however late the poll, and the
next deadline counts from that poll.  Times are in milliseconds.
-/

namespace Trainer51

structure Ticker where
  /-- Tells tickers apart; no two have the same. -/
  handle : Nat
  period : Nat
  deadline : Nat
  deriving DecidableEq, Repr

namespace Ticker

def start (handle period now : Nat) : Ticker := ⟨handle, period, now + period⟩

/-- Poll at `now`; the flag tells whether a tick was due. -/
def poll (t : Ticker) (now : Nat) : Ticker × Bool :=
  if now < t.deadline then (t, false) else ({ t with deadline := now + t.period }, true)

end Ticker

end Trainer51
