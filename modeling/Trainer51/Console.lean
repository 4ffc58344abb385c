import Trainer51.Workbench

/-!
# The console

Commands for a workbench, and a queue of them.  Anyone may put commands in; they are applied in the
order in which they came, each once.
-/

namespace Trainer51

inductive Command where
  | load (image : List Byte)
  | step
  | run
  | pause
  | stop
  /-- Run to the selected row. -/
  | runToTarget
  | runToAddress (address : Word)
  | refresh
  | selectSpace (name : String)
  | pressKey (key : Key)
  | releaseKey (key : Key)
  /-- The pointer was released somewhere. -/
  | releasePointer
  | selectRow (address : Word)
  | reset
  | scroll (rows : Int)
  | scrollTo (address : Word)
  /-- A tick for the run that the timer belongs to. -/
  | fire (handle : Nat)
  deriving DecidableEq, Repr

/-- The outcome of an operation without its result. -/
def Outcome.done {M α : Type} (o : Outcome M α) : Outcome M (Except BenchError Unit) :=
  ⟨o.bench, o.changes, .ok ()⟩

/-- The outcome of an operation, of whose result only a failure counts. -/
def Outcome.checked {M α : Type} (o : Outcome M (Except BenchError α)) :
    Outcome M (Except BenchError Unit) :=
  ⟨o.bench, o.changes, o.result.map fun _ => ()⟩

/-- Apply a command at a time. -/
def Workbench.apply {M : Type} [Machine M] (w : Workbench M) (now : Nat) :
    Command → Outcome M (Except BenchError Unit)
  | .load image => w.load image
  | .step => w.step
  | .run => (w.toggleRun now).done
  | .pause => w.pause.done
  | .stop => w.stop.done
  | .runToTarget => (w.runToSelected now).done
  | .runToAddress address => (w.runTo address now).done
  | .refresh => w.refresh.done
  | .selectSpace name => w.selectSpaceNamed name
  | .pressKey key => (w.pressKey key).done
  | .releaseKey key => (w.releaseKey key).done
  | .releasePointer => w.releaseAllKeys.done
  | .selectRow address => (w.selectRow address).done
  | .reset => w.reset.done
  | .scroll rows => (w.scroll rows).done
  | .scrollTo address => (w.scrollTo address).done
  | .fire handle => (w.fire handle).checked

structure Console (M : Type) where
  bench : Workbench M
  /-- The commands to apply, the next one first. -/
  queue : List Command := []

/-- What pumping a console leaves. -/
structure Pumped (M : Type) where
  console : Console M
  changes : List Change
  /-- How many commands were applied, or the failure of the last one. -/
  result : Except BenchError Nat

namespace Console

variable {M : Type} [Machine M]

/-- Put a command at the end of the queue. -/
def send (c : Console M) (command : Command) : Console M :=
  { c with queue := c.queue ++ [command] }

/-- Apply the commands of a queue in order, up to one that fails; it is used up, the ones after it
stay.  `applied` counts the commands applied before. -/
def pumpQueue (now applied : Nat) (w : Workbench M) : List Command → Pumped M
  | [] => ⟨⟨w, []⟩, [], .ok applied⟩
  | command :: queue =>
    let o := w.apply now command
    match o.result with
    | .ok () =>
      let rest := pumpQueue now (applied + 1) o.bench queue
      { rest with changes := o.changes ++ rest.changes }
    | .error e => ⟨⟨o.bench, queue⟩, o.changes, .error e⟩

/-- Apply the queued commands. -/
def pump (c : Console M) (now : Nat) : Pumped M := pumpQueue now 0 c.bench c.queue

end Console

end Trainer51
