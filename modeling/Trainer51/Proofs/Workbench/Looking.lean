import Trainer51.Proofs.Dsm51.Settled

/-!
# Looking does not disturb

Some operations are for whoever looks at a workbench: they choose the memory space, move or resize
the window, or have the machine refreshed.  What the others do and answer depends neither on the
space nor on the window nor on the panel, and a settled board is the same after a refresh.  So the
operations that only look can be left out of any script, and whoever works with the board finds
everything as it would have been.

    the other operations take no notice of the view               (perform_withoutView)
    looking changes nothing but the view                          (withoutView_of_looks)
    a script with the looking and the same script without it      (alike_after)
    looking does not disturb a board                              (looking_after_new)
-/

namespace Trainer51

/-- Whether an operation only looks at the workbench. -/
def Operation.looks : Operation → Bool
  | .selectSpace _ | .resizeWindow _ => true
  | .command .refresh | .command (.selectSpace _) => true
  | .command (.scroll _) | .command (.scrollTo _) => true
  | _ => false

/-- The operations of a script that do more than look, each at its time. -/
def Script.withoutLooking (script : Script) : Script := script.filter fun o => !o.2.looks

/-- The result of an operation; that of a poll tells whether a tick was due. -/
inductive Answer where
  | done (result : Except BenchError Unit)
  | polled (result : Except BenchError Bool)
  deriving Repr

/-- What an operation announces and how it is answered. -/
structure Reply where
  operation : Operation
  changes : List Change
  answer : Answer
  deriving Repr

/-- Whether more was asked for than a look. -/
def Reply.matters (r : Reply) : Bool := !r.operation.looks

/-- All of a workbench but what is shown of the machine. -/
def Workbench.withoutView {M : Type} (w : Workbench M) : Workbench M :=
  { w with space := .rom, window := .new 0 0, panel := {} }

/-- The outcome of an operation, less the view. -/
def Outcome.withoutView {M α : Type} (o : Outcome M α) : Outcome M α :=
  { o with bench := o.bench.withoutView }

namespace Workbench

/-! ## Operations that leave the machine alone -/

section

variable {M : Type} (w : Workbench M)

@[simp] theorem machine_withoutView : w.withoutView.machine = w.machine := rfl

@[simp] theorem listing_withoutView : w.withoutView.listing = w.listing := rfl

@[simp] theorem cursor_withoutView : w.withoutView.cursor = w.cursor := rfl

@[simp] theorem run_withoutView : w.withoutView.run = w.run := rfl

@[simp] theorem mode_withoutView : w.withoutView.mode = w.mode := rfl

@[simp] theorem keys_withoutView : w.withoutView.keys = w.keys := rfl

@[simp] theorem atLimit_withoutView (ticks : Nat) :
    w.withoutView.atLimit ticks = w.atLimit ticks := rfl

theorem stop_withoutView : w.stop.withoutView = w.withoutView.stop.withoutView := by
  unfold stop
  rw [mode_withoutView]
  split <;> rfl

theorem pause_withoutView : w.pause.withoutView = w.withoutView.pause.withoutView := by
  unfold pause
  rw [mode_withoutView]
  split
  · exact stop_withoutView w
  · rfl

theorem toggleRun_withoutView (now : Nat) :
    (w.toggleRun now).withoutView = (w.withoutView.toggleRun now).withoutView := by
  unfold toggleRun
  rw [listing_withoutView, mode_withoutView]
  split
  · rfl
  · cases w.mode with
    | running => exact pause_withoutView w
    | steppingToTarget => rfl
    | idle => rfl

theorem runTo_withoutView (target : Word) (now : Nat) :
    (w.runTo target now).withoutView = (w.withoutView.runTo target now).withoutView := by
  unfold runTo
  rw [listing_withoutView, mode_withoutView]
  split <;> rfl

theorem runToSelected_withoutView (now : Nat) :
    (w.runToSelected now).withoutView = (w.withoutView.runToSelected now).withoutView := by
  unfold runToSelected
  rw [cursor_withoutView]
  cases w.cursor.selected with
  | none => rfl
  | some target => exact runTo_withoutView w target now

theorem selectRow_withoutView (address : Word) :
    (w.selectRow address).withoutView = (w.withoutView.selectRow address).withoutView := by
  unfold selectRow
  rw [listing_withoutView]
  split <;> rfl

end

/-! ## Operations on the machine -/

section

variable {M : Type} [Machine M] (w : Workbench M)

@[simp] theorem accept_withoutView (image : List Byte) :
    w.withoutView.accept image = w.accept image := rfl

@[simp] theorem clear_withoutView : w.withoutView.clear = w.clear.withoutView := rfl

theorem load_withoutView (image : List Byte) :
    (w.load image).withoutView = (w.withoutView.load image).withoutView := by
  unfold load
  rw [accept_withoutView]
  cases w.accept image with
  | error e => rfl
  | ok rows =>
    dsimp only
    rw [clear_withoutView, machine_withoutView]
    cases Machine.load w.clear.machine image with
    | mk machine result => cases result <;> rfl

theorem execute_withoutView : w.execute.withoutView = w.withoutView.execute.withoutView := by
  unfold execute
  rw [machine_withoutView]
  cases Machine.step w.machine with
  | mk machine result => cases result <;> rfl

theorem step_withoutView : w.step.withoutView = w.withoutView.step.withoutView := by
  unfold step
  rw [listing_withoutView, mode_withoutView]
  split
  · rfl
  · exact execute_withoutView w

theorem tick_withoutView : w.tick.withoutView = w.withoutView.tick.withoutView := by
  unfold tick
  rw [run_withoutView, cursor_withoutView]
  cases w.run with
  | idle => rfl
  | running timer => exact execute_withoutView w
  | stepping timer target ticks =>
    dsimp only
    rw [atLimit_withoutView]
    split
    · rfl
    · exact execute_withoutView { w with run := .stepping timer target (ticks + 1) }

theorem ticked_withoutView : w.ticked.withoutView = w.withoutView.ticked.withoutView := by
  let ran (o : Outcome M (Except BenchError Unit)) : Outcome M (Except BenchError Bool) :=
    ⟨o.bench, o.changes, o.result.map fun _ => true⟩
  exact congrArg ran (tick_withoutView w)

theorem poll_withoutView (now : Nat) :
    (w.poll now).withoutView = (w.withoutView.poll now).withoutView := by
  unfold poll
  rw [run_withoutView]
  cases w.run.timer? with
  | none => rfl
  | some timer =>
    dsimp only
    cases timer.poll now with
    | mk timer due =>
      cases due with
      | false => rfl
      | true => exact ticked_withoutView { w with run := w.run.withTimer timer }

theorem fire_withoutView (handle : Nat) :
    (w.fire handle).withoutView = (w.withoutView.fire handle).withoutView := by
  unfold fire
  rw [run_withoutView]
  split
  · exact ticked_withoutView w
  · rfl

theorem pressKey_withoutView (key : Key) :
    (w.pressKey key).withoutView = (w.withoutView.pressKey key).withoutView := by
  unfold pressKey
  rw [keys_withoutView, machine_withoutView]
  cases w.keys.press? w.machine key <;> rfl

theorem releaseKey_withoutView (key : Key) :
    (w.releaseKey key).withoutView = (w.withoutView.releaseKey key).withoutView := by
  unfold releaseKey
  rw [keys_withoutView, machine_withoutView]
  cases w.keys.release? w.machine key <;> rfl

theorem releaseAllKeys_withoutView :
    w.releaseAllKeys.withoutView = w.withoutView.releaseAllKeys.withoutView := by
  unfold releaseAllKeys
  rw [keys_withoutView, machine_withoutView]
  split <;> rfl

/-- **What does more than look takes no notice of the view.** -/
theorem perform_withoutView (now : Nat) {operation : Operation} (h : operation.looks = false) :
    (w.perform now operation).withoutView = (w.withoutView.perform now operation).withoutView := by
  cases operation with
  | poll => exact congrArg Outcome.checked (poll_withoutView w now)
  | selectSpace | resizeWindow => cases h
  | command command =>
    cases command with
    | load image => exact load_withoutView w image
    | step => exact step_withoutView w
    | run => exact congrArg Outcome.done (toggleRun_withoutView w now)
    | pause => exact congrArg Outcome.done (pause_withoutView w)
    | stop => exact congrArg Outcome.done (stop_withoutView w)
    | runToTarget => exact congrArg Outcome.done (runToSelected_withoutView w now)
    | runToAddress address => exact congrArg Outcome.done (runTo_withoutView w address now)
    | pressKey key => exact congrArg Outcome.done (pressKey_withoutView w key)
    | releaseKey key => exact congrArg Outcome.done (releaseKey_withoutView w key)
    | releasePointer => exact congrArg Outcome.done (releaseAllKeys_withoutView w)
    | selectRow address => exact congrArg Outcome.done (selectRow_withoutView w address)
    | reset => rfl
    | fire handle => exact congrArg Outcome.checked (fire_withoutView w handle)
    | refresh | selectSpace | scroll | scrollTo => cases h

/-- Looking changes nothing but the view of a machine that is the same after a refresh. -/
theorem withoutView_of_looks (now : Nat) {operation : Operation} (looks : operation.looks = true)
    (same : Machine.refresh w.machine = w.machine) :
    (w.perform now operation).bench.withoutView = w.withoutView := by
  cases operation with
  | poll => cases looks
  | selectSpace space => rfl
  | resizeWindow extent =>
    show (w.resizeWindow extent).bench.withoutView = _
    unfold resizeWindow
    split <;> rfl
  | command command =>
    cases command with
    | refresh =>
      show { w.withoutView with machine := Machine.refresh w.machine } = w.withoutView
      rw [same]
      rfl
    | selectSpace name =>
      show (w.selectSpaceNamed name).bench.withoutView = _
      unfold selectSpaceNamed
      split <;> rfl
    | scroll rows => rfl
    | scrollTo address => rfl
    | _ => cases looks

end

/-! ## With the looking and without it -/

section

variable {M : Type} [Machine M]

/-- The result of an operation as whoever asked for it gets it. -/
def answer (w : Workbench M) (now : Nat) : Operation → Answer
  | .poll => .polled (w.poll now).result
  | operation => .done (w.perform now operation).result

def reply (w : Workbench M) (now : Nat) (operation : Operation) : Reply :=
  ⟨operation, (w.perform now operation).changes, w.answer now operation⟩

/-- The replies to the operations of a script. -/
def replies (w : Workbench M) : Script → List Reply
  | [] => []
  | o :: script => w.reply o.1 o.2 :: (w.perform o.1 o.2).bench.replies script

theorem answer_withoutView (w : Workbench M) (now : Nat) {operation : Operation}
    (h : operation.looks = false) :
    w.answer now operation = w.withoutView.answer now operation := by
  cases operation with
  | poll =>
    have result := congrArg (·.result) (poll_withoutView w now)
    exact congrArg Answer.polled result
  | _ =>
    have result := congrArg (·.result) (perform_withoutView w now h)
    exact congrArg Answer.done result

theorem reply_withoutView (w : Workbench M) (now : Nat) {operation : Operation}
    (h : operation.looks = false) : w.reply now operation = w.withoutView.reply now operation := by
  have changes : (w.perform now operation).changes =
      (w.withoutView.perform now operation).changes :=
    congrArg (·.changes) (perform_withoutView w now h)
  unfold reply
  rw [changes, answer_withoutView w now h]

/-- On workbenches alike but for the view an operation that does more than look does the same and
gets the same reply. -/
theorem alike_perform {w v : Workbench M} (alike : w.withoutView = v.withoutView) (now : Nat)
    {operation : Operation} (h : operation.looks = false) :
    (w.perform now operation).bench.withoutView = (v.perform now operation).bench.withoutView ∧
      w.reply now operation = v.reply now operation := by
  have outcome : (w.perform now operation).withoutView = (v.perform now operation).withoutView := by
    rw [perform_withoutView w now h, alike, ← perform_withoutView v now h]
  constructor
  · exact congrArg (·.bench) outcome
  · rw [reply_withoutView w now h, alike, ← reply_withoutView v now h]

/-- Of two workbenches alike but for the view one is given a script and the other the script without
the looking.  Afterwards they are still alike, and what was asked of both got the same replies. -/
theorem alike_after {p : M → Prop} (keeps : KeysKeep p)
    (same : ∀ m, p m → Machine.refresh m = m) {w v : Workbench M}
    (alike : w.withoutView = v.withoutView) (h : p w.machine) (script : Script) :
    (w.after script).withoutView = (v.after script.withoutLooking).withoutView ∧
      (w.replies script).filter Reply.matters = v.replies script.withoutLooking := by
  induction script generalizing w v with
  | nil => exact ⟨alike, rfl⟩
  | cons o script ih =>
    have kept := (move_perform w o.1 o.2).machine keeps h
    cases looks : o.2.looks with
    | true =>
      -- the view of `w` changes, and `v` waits
      have dropped : Script.withoutLooking (o :: script) = Script.withoutLooking script :=
        List.filter_cons_of_neg (by simp [looks])
      have unheard : ¬(w.reply o.1 o.2).matters = true := by simp [Reply.matters, reply, looks]
      have still : (w.perform o.1 o.2).bench.withoutView = v.withoutView :=
        (withoutView_of_looks w o.1 looks (same _ h)).trans alike
      rw [after_cons, replies, dropped, List.filter_cons_of_neg unheard]
      exact ih still kept
    | false =>
      have taken : Script.withoutLooking (o :: script) = o :: Script.withoutLooking script :=
        List.filter_cons_of_pos (by simp [looks])
      have heard : (w.reply o.1 o.2).matters = true := by simp [Reply.matters, reply, looks]
      obtain ⟨bench, answered⟩ := alike_perform alike o.1 looks
      obtain ⟨after, later⟩ := ih bench kept
      rw [taken, after_cons, after_cons, replies, replies, List.filter_cons_of_pos heard, answered,
        later]
      exact ⟨after, rfl⟩

/-- **Looking does not disturb.**  Leave out of a script all that only looks at the board: the
board, the listing, the cursor, the run with its timer and the held keys are the same in the end,
and every operation that is left announces the same and returns the same. -/
theorem looking_after_new (format : ImageFormat) (lister : Lister) (s : Settings)
    (script : Script) :
    let start := new (Dsm51.new format) lister s
    let w := start.after script
    let v := start.after script.withoutLooking
    w.machine = v.machine ∧ w.listing = v.listing ∧ w.cursor = v.cursor ∧ w.run = v.run ∧
      w.keys = v.keys ∧
      (start.replies script).filter Reply.matters = start.replies script.withoutLooking := by
  intro start w v
  obtain ⟨alike, replies⟩ := alike_after Dsm51.keysKeep_settled (fun _ h => h.refresh)
    (rfl : start.withoutView = start.withoutView) (Dsm51.settled_new format) script
  have machine : w.withoutView.machine = v.withoutView.machine := by rw [alike]
  have listing : w.withoutView.listing = v.withoutView.listing := by rw [alike]
  have cursor : w.withoutView.cursor = v.withoutView.cursor := by rw [alike]
  have run : w.withoutView.run = v.withoutView.run := by rw [alike]
  have keys : w.withoutView.keys = v.withoutView.keys := by rw [alike]
  exact ⟨machine, listing, cursor, run, keys, replies⟩

end

end Workbench

end Trainer51
