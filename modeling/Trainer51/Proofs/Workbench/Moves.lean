import Trainer51.Console

/-!
# What can happen to a workbench

Everything that can be asked of a workbench is an `Operation` at a time, and a script asks one
after the other.  An operation can do many things but only a few different ones: `Move` lists them,
each with what makes it happen.

    Move w (w.perform now operation)                                              (move_perform)
    p w → (every move keeps p) → p (w.after script)                               (after_of_move)
    p w.machine → (the machine's operations keep p) → p (w.after script).machine  (machine_after)
    the same where only keys drive the inputs                                     (KeysKeep.after)
-/

namespace Trainer51

/-- What can be asked of a workbench: a command, or what a command does not cover. -/
inductive Operation where
  | command (command : Command)
  /-- Give the run in progress its tick if it is due. -/
  | poll
  | selectSpace (space : MemorySpace)
  | resizeWindow (extent : Nat)
  deriving DecidableEq, Repr

/-- Operations in the order in which they are asked for, each with its time. -/
abbrev Script := List (Nat × Operation)

/-- Two states of one run, a tick or more apart. -/
structure RunState.SameRun (r s : RunState) : Prop where
  mode : r.mode = s.mode
  handle : r.timer?.map (·.handle) = s.timer?.map (·.handle)
  target : r.target? = s.target?

theorem RunState.SameRun.refl (r : RunState) : r.SameRun r := ⟨rfl, rfl, rfl⟩

theorem RunState.eq_idle_of_mode {r : RunState} (h : r.mode = .idle) : r = .idle := by
  cases r with
  | idle => rfl
  | running => cases h
  | stepping => cases h

/-- A timer that has been polled belongs to the same run. -/
theorem RunState.sameRun_withTimer (r : RunState) {t t' : Ticker} {now : Nat} {due : Bool}
    (ht : r.timer? = some t) (hp : t.poll now = (t', due)) : (r.withTimer t').SameRun r := by
  have hh : t'.handle = t.handle := by
    unfold Ticker.poll at hp
    split at hp <;> cases hp <;> rfl
  cases r with
  | idle => cases ht
  | running u =>
    cases ht
    exact ⟨rfl, congrArg some hh, rfl⟩
  | stepping u target ticks =>
    cases ht
    exact ⟨rfl, congrArg some hh, rfl⟩

theorem RunState.ticks?_withTimer (r : RunState) (timer : Ticker) :
    (r.withTimer timer).ticks? = r.ticks? := by
  cases r <;> rfl

/-- Only the offset changes. -/
theorem MemoryWindow.scrollToRow_eq (w : MemoryWindow) (row : Nat) :
    ∃ offset, w.scrollToRow row = { w with offset } := by
  unfold scrollToRow
  dsimp only
  split
  · exact ⟨w.offset, rfl⟩
  · split
    · exact ⟨_, rfl⟩
    · split
      · exact ⟨_, rfl⟩
      · exact ⟨w.offset, rfl⟩

/-- What shows of the outcome of an operation: what it announced, and its result. -/
def Outcome.entry {M α : Type} (o : Outcome M α) : List Change × α := (o.changes, o.result)

namespace Workbench

variable {M : Type} [Machine M]

/-- Carry out an operation at a time. -/
def perform (w : Workbench M) (now : Nat) : Operation → Outcome M (Except BenchError Unit)
  | .command command => w.apply now command
  | .poll => (w.poll now).checked
  | .selectSpace space => (w.selectSpace space).done
  | .resizeWindow extent => (w.resizeWindow extent).done

/-- The workbench that a script leaves, the operations that failed included. -/
def after (w : Workbench M) (script : Script) : Workbench M :=
  script.foldl (fun w o => (w.perform o.1 o.2).bench) w

/-- A later state of the run in progress, in which at most one more step is counted, and that not
beyond the limit. -/
def Counts (w : Workbench M) (run : RunState) : Prop :=
  run.ticks? = w.run.ticks? ∨
    ∃ ticks, w.run.ticks? = some ticks ∧ w.atLimit ticks = false ∧ run.ticks? = some (ticks + 1)

/-- What an operation may turn out to be. -/
inductive Move (w : Workbench M) : Outcome M (Except BenchError Unit) → Prop where
  /-- Refused or ignored. -/
  | nothing (result : Except BenchError Unit) : Move w (w.unchanged result)
  | loaded (image : List Byte) (rows : List Row) (machine : M)
      (accepted : w.accept image = .ok rows)
      (load : Machine.load (Machine.clearAll w.machine) image = (machine, .ok ())) :
      Move w (({ w.clear with
          machine
          listing := .ofRows rows
          space := .rom
          window := w.window.reset }.followPc.reread).announce (.loaded rows.length) (.ok ()))
  /-- The machine failed to load what it had accepted. -/
  | unloaded (image : List Byte) (rows : List Row) (machine : M) (e : MachineError)
      (accepted : w.accept image = .ok rows)
      (load : Machine.load (Machine.clearAll w.machine) image = (machine, .error e)) :
      Move w (({ w.clear with machine }.followPc.reread).announce (.loaded 0)
        (.error (.load (.machine e))))
  | stepped (machine : M) (run : RunState) (same : run.SameRun w.run)
      (step : Machine.step w.machine = (machine, .ok ())) (counts : w.Counts run) :
      Move w (({ w with machine, run }.followPc.reread).announce (.stepped (Machine.pc machine))
        (.ok ()))
  | halted (machine : M) (e : MachineError)
      (step : Machine.step w.machine = (machine, .error e)) :
      Move w (({ w with machine, run := .idle }.reread).announce (.halted e) (.error (.halted e)))
  | begun (now : Nat) (run : Ticker → RunState)
      (kind : run = .running ∨ ∃ target, run = (.stepping · target 0))
      (program : w.listing.isEmpty = false) (idle : w.mode = .idle) :
      Move w (w.begin now run).done
  | ended (active : w.mode ≠ .idle) :
      Move w ({ w with run := .idle }.announce (.modeChanged .idle) (.ok ()))
  | reset : Move w w.reset.done
  | refreshed : Move w w.refresh.done
  | spaceSelected (space : MemorySpace) : Move w (w.selectSpace space).done
  | rowSelected (address : Word) (row : (w.listing.index? address).isSome) :
      Move w ({ w with cursor := { w.cursor with selected := some address } }.announce
        (.rowSelected address) (.ok ()))
  | scrolled (extent offset : Nat)
      (fits : w.window.Fits → ({ w.window with extent, offset } : MemoryWindow).Fits) :
      Move w ({ w with window := { w.window with extent, offset } }.announce .scrolled (.ok ()))
  | pressed (key : Key) (heard : HeldKeys.listening w.machine key) :
      Move w ((w.keyed { w.keys with keys := key.insertInOrder w.keys.keys }
        (HeldKeys.drive w.machine key true)).announce (.keyPressed key) (.ok ()))
  | released (key : Key) (heard : w.keys.mode = .global ∨ HeldKeys.listening w.machine key) :
      Move w ((w.keyed { w.keys with keys := w.keys.keys.filter (· != key) }
        (HeldKeys.drive w.machine key false)).announce (.keyReleased key) (.ok ()))
  | allReleased (anywhere : w.keys.mode = .global) (some : w.keys.keys ≠ []) :
      Move w ⟨w.keyed { w.keys with keys := [] }
        (w.keys.keys.foldl (HeldKeys.drive · · false) w.machine),
        w.keys.keys.map .keyReleased, .ok ()⟩

/-! ## Every operation is a move -/

theorem checked_ticked (w : Workbench M) : w.ticked.checked = w.tick := by
  simp only [ticked, Outcome.checked]
  generalize w.tick = o
  obtain ⟨bench, changes, result⟩ := o
  cases result <;> rfl

theorem move_load (w : Workbench M) (image : List Byte) : Move w (w.load image) := by
  unfold load
  split
  · exact .nothing _
  · next rows accepted =>
    dsimp only
    split
    · next machine e load => exact .unloaded image rows machine e accepted load
    · next machine load => exact .loaded image rows machine accepted load

/-- A machine step, taken in a later state of the run in progress. -/
theorem move_execute (w : Workbench M) (run : RunState) (same : run.SameRun w.run)
    (counts : w.Counts run) : Move w ({ w with run } : Workbench M).execute := by
  unfold execute
  split
  · next machine step => exact .stepped machine run same step counts
  · next machine e step => exact .halted machine e step

theorem move_step (w : Workbench M) : Move w w.step := by
  unfold step
  split
  · exact .nothing _
  · exact move_execute w w.run (.refl _) (.inl rfl)

theorem move_stop (w : Workbench M) : Move w w.stop.done := by
  unfold stop
  split
  · exact .nothing _
  · next active => exact .ended active

theorem move_pause (w : Workbench M) : Move w w.pause.done := by
  unfold pause
  split
  · exact move_stop w
  · exact .nothing _

theorem move_toggleRun (w : Workbench M) (now : Nat) : Move w (w.toggleRun now).done := by
  unfold toggleRun
  split
  · exact .nothing _
  · next program =>
    split
    · exact move_pause w
    · exact .nothing _
    · next idle => exact .begun now .running (.inl rfl) (by simpa using program) idle

theorem move_runTo (w : Workbench M) (target : Word) (now : Nat) :
    Move w (w.runTo target now).done := by
  unfold runTo
  split
  · exact .nothing _
  · next h =>
    obtain ⟨program, idle⟩ := not_or.1 h
    exact .begun now _ (.inr ⟨target, rfl⟩) (by simpa using program) (Decidable.not_not.1 idle)

theorem move_runToSelected (w : Workbench M) (now : Nat) : Move w (w.runToSelected now).done := by
  unfold runToSelected
  split
  · next target _ => exact move_runTo w target now
  · exact .nothing _

/-- A tick, delivered in a later state of the run in progress. -/
theorem move_tick (w : Workbench M) (run : RunState) (same : run.SameRun w.run)
    (ticks : run.ticks? = w.run.ticks?) : Move w ({ w with run } : Workbench M).tick := by
  unfold tick
  split
  · next hrun =>
    -- both states are idle, so the later one is no other
    replace hrun : run = .idle := hrun
    subst hrun
    have hw : w.run = .idle := RunState.eq_idle_of_mode same.mode.symm
    rw [← hw]
    exact .nothing _
  · exact move_execute w run same (.inl ticks)
  · next timer target taken hrun =>
    subst hrun
    split
    · refine .ended fun idle => ?_
      have := same.mode.trans idle
      cases this
    · next goes_on =>
      have below : w.atLimit taken = false := Bool.eq_false_iff.2 (not_or.1 goes_on).2
      exact move_execute w (.stepping timer target (taken + 1))
        ⟨same.mode, same.handle, same.target⟩ (.inr ⟨taken, ticks.symm, below, rfl⟩)

theorem move_poll (w : Workbench M) (now : Nat) : Move w (w.poll now).checked := by
  unfold poll
  split
  · exact .nothing _
  · next timer htimer =>
    split
    · exact .nothing _
    · next timer' hpoll =>
      rw [checked_ticked]
      exact move_tick w (w.run.withTimer timer') (w.run.sameRun_withTimer htimer hpoll)
        (w.run.ticks?_withTimer timer')

theorem move_fire (w : Workbench M) (handle : Nat) : Move w (w.fire handle).checked := by
  unfold fire
  split
  · rw [checked_ticked]
    exact move_tick w w.run (.refl _) rfl
  · exact .nothing _

theorem move_selectSpaceNamed (w : Workbench M) (name : String) :
    Move w (w.selectSpaceNamed name) := by
  unfold selectSpaceNamed
  split
  · next space _ => exact .spaceSelected space
  · exact .nothing _

theorem move_selectRow (w : Workbench M) (address : Word) : Move w (w.selectRow address).done := by
  unfold selectRow
  split
  · next row => exact .rowSelected address row
  · exact .nothing _

theorem move_scrollTo (w : Workbench M) (address : Word) : Move w (w.scrollTo address).done := by
  unfold scrollTo
  dsimp only
  split
  · have fits (h : w.window.Fits) := h.scrollToRow (address - w.space.base).toNat
    obtain ⟨offset, h⟩ := w.window.scrollToRow_eq (address - w.space.base).toNat
    rw [h] at fits ⊢
    exact .scrolled w.window.extent offset fits
  · exact .scrolled w.window.extent w.window.offset id

theorem move_resizeWindow (w : Workbench M) (extent : Nat) :
    Move w (w.resizeWindow extent).done := by
  unfold resizeWindow
  split
  · exact .nothing _
  · exact .scrolled extent _ fun _ => w.window.fits_resize extent

theorem move_pressKey (w : Workbench M) (key : Key) : Move w (w.pressKey key).done := by
  unfold pressKey HeldKeys.press?
  split
  · next keys machine h =>
    split at h
    · next heard =>
      cases h
      exact .pressed key heard
    · cases h
  · exact .nothing _

theorem move_releaseKey (w : Workbench M) (key : Key) : Move w (w.releaseKey key).done := by
  unfold releaseKey HeldKeys.release?
  split
  · next keys machine h =>
    split at h
    · next heard =>
      cases h
      exact .released key (by simpa using heard)
    · cases h
  · exact .nothing _

theorem move_releaseAllKeys (w : Workbench M) : Move w w.releaseAllKeys.done := by
  unfold releaseAllKeys HeldKeys.releaseAll
  split
  · exact .nothing _
  · next keys machine released hne h =>
    split at h
    · cases h
      exact absurd rfl hne
    · next anywhere =>
      cases h
      exact .allReleased anywhere hne

/-- **Every operation is a move.** -/
theorem move_perform (w : Workbench M) (now : Nat) (operation : Operation) :
    Move w (w.perform now operation) := by
  cases operation with
  | poll => exact move_poll w now
  | selectSpace space => exact .spaceSelected space
  | resizeWindow extent => exact move_resizeWindow w extent
  | command command =>
    cases command with
    | load image => exact move_load w image
    | step => exact move_step w
    | run => exact move_toggleRun w now
    | pause => exact move_pause w
    | stop => exact move_stop w
    | runToTarget => exact move_runToSelected w now
    | runToAddress address => exact move_runTo w address now
    | refresh => exact .refreshed
    | selectSpace name => exact move_selectSpaceNamed w name
    | pressKey key => exact move_pressKey w key
    | releaseKey key => exact move_releaseKey w key
    | releasePointer => exact move_releaseAllKeys w
    | selectRow address => exact move_selectRow w address
    | reset => exact .reset
    | scroll rows => exact .scrolled w.window.extent _ fun _ => w.window.fits_scrollRows rows
    | scrollTo address => exact move_scrollTo w address
    | fire handle => exact move_fire w handle

/-! ## Along a script -/

theorem after_cons (w : Workbench M) (o : Nat × Operation) (script : Script) :
    w.after (o :: script) = (w.perform o.1 o.2).bench.after script := rfl

theorem after_append (w : Workbench M) (script later : Script) :
    w.after (script ++ later) = (w.after script).after later :=
  List.foldl_append

theorem after_concat (w : Workbench M) (script : Script) (o : Nat × Operation) :
    w.after (script ++ [o]) = ((w.after script).perform o.1 o.2).bench :=
  after_append w script [o]

/-- What every move keeps holds after every script. -/
theorem after_of_move {p : Workbench M → Prop}
    (keep : ∀ (w : Workbench M) (o : Outcome M (Except BenchError Unit)),
      Move w o → p w → p o.bench)
    (w : Workbench M) (h : p w) (script : Script) : p (w.after script) := by
  induction script generalizing w with
  | nil => exact h
  | cons o script ih => exact ih _ (keep w _ (move_perform w o.1 o.2) h)

/-- What a workbench does to its machine keeps `p`. -/
structure MachineKeeps (p : M → Prop) : Prop where
  step : ∀ m, p m → p (Machine.step m).1
  clearAll : ∀ m, p m → p (Machine.clearAll m)
  load : ∀ m image, p m → p (Machine.load m image).1
  clearWorking : ∀ m, p m → p (Machine.clearWorking m)
  drive : ∀ m bit down, p m → p (Machine.drive m bit down)
  refresh : ∀ m, p m → p (Machine.refresh m)

/-- What a workbench does to its machine keeps `p`, where only keys drive the inputs. -/
structure KeysKeep (p : M → Prop) : Prop where
  step : ∀ m, p m → p (Machine.step m).1
  clearAll : ∀ m, p m → p (Machine.clearAll m)
  load : ∀ m image, p m → p (Machine.load m image).1
  clearWorking : ∀ m, p m → p (Machine.clearWorking m)
  press : ∀ m key down, p m → p (HeldKeys.drive m key down)
  refresh : ∀ m, p m → p (Machine.refresh m)

theorem MachineKeeps.keysKeep {p : M → Prop} (keeps : MachineKeeps p) : KeysKeep p where
  step := keeps.step
  clearAll := keeps.clearAll
  load := keeps.load
  clearWorking := keeps.clearWorking
  press _ _ _ h := keeps.refresh _ (keeps.drive _ _ _ h)
  refresh := keeps.refresh

/-- What the release of one key keeps, the release of all keys keeps. -/
theorem foldl_drive {p : M → Prop} (keep : ∀ m key, p m → p (HeldKeys.drive m key false))
    (keys : List Key) (m : M) (h : p m) : p (keys.foldl (HeldKeys.drive · · false) m) := by
  induction keys generalizing m with
  | nil => exact h
  | cons key keys ih => exact ih _ (keep m key h)

theorem Move.machine {p : M → Prop} (keeps : KeysKeep p) {w : Workbench M}
    {o : Outcome M (Except BenchError Unit)} (move : Move w o) (h : p w.machine) :
    p o.bench.machine := by
  cases move with
  | nothing | begun | ended | spaceSelected | rowSelected | scrolled => exact h
  | loaded image rows machine accepted load =>
    have := keeps.load _ image (keeps.clearAll _ h)
    rwa [load] at this
  | unloaded image rows machine e accepted load =>
    have := keeps.load _ image (keeps.clearAll _ h)
    rwa [load] at this
  | stepped machine run same step =>
    have := keeps.step _ h
    rwa [step] at this
  | halted machine e step =>
    have := keeps.step _ h
    rwa [step] at this
  | reset => exact keeps.clearWorking _ h
  | refreshed => exact keeps.refresh _ h
  | pressed key heard => exact keeps.press _ key true h
  | released key heard => exact keeps.press _ key false h
  | allReleased anywhere some => exact foldl_drive (keeps.press · · false) _ _ h

/-- A property of machines that what is done to them keeps holds of the machine after every
script. -/
theorem KeysKeep.after {p : M → Prop} (keeps : KeysKeep p) (w : Workbench M) (h : p w.machine)
    (script : Script) : p (w.after script).machine :=
  after_of_move (fun _ _ move => move.machine keeps) w h script

/-- A property of machines that their operations keep holds of the machine after every script. -/
theorem machine_after {p : M → Prop} (keeps : MachineKeeps p) (w : Workbench M) (h : p w.machine)
    (script : Script) : p (w.after script).machine :=
  keeps.keysKeep.after w h script

/-- Two workbenches with the same lister and the same settings. -/
structure SameSettings {M : Type} (w v : Workbench M) : Prop where
  lister : w.lister = v.lister
  rowHeight : w.window.rowHeight = v.window.rowHeight
  keyRelease : w.keys.mode = v.keys.mode
  cadence : w.cadence = v.cadence
  targetLimit : w.targetLimit = v.targetLimit

theorem SameSettings.refl {M : Type} (w : Workbench M) : w.SameSettings w :=
  ⟨rfl, rfl, rfl, rfl, rfl⟩

theorem SameSettings.trans {M : Type} {u v w : Workbench M} (h : u.SameSettings v)
    (h' : v.SameSettings w) : u.SameSettings w where
  lister := h.lister.trans h'.lister
  rowHeight := h.rowHeight.trans h'.rowHeight
  keyRelease := h.keyRelease.trans h'.keyRelease
  cadence := h.cadence.trans h'.cadence
  targetLimit := h.targetLimit.trans h'.targetLimit

theorem Move.sameSettings {w v : Workbench M} {o : Outcome M (Except BenchError Unit)}
    (move : Move w o) (same : w.SameSettings v) : o.bench.SameSettings v := by
  obtain ⟨lister, rowHeight, keyRelease, cadence, targetLimit⟩ := same
  cases move <;> exact ⟨lister, rowHeight, keyRelease, cadence, targetLimit⟩

/-- The lister and the settings never change. -/
theorem sameSettings_after (w : Workbench M) (script : Script) :
    (w.after script).SameSettings w :=
  after_of_move (p := (SameSettings · w)) (fun _ _ move => move.sameSettings) w (.refl w) script

theorem lister_after (w : Workbench M) (script : Script) : (w.after script).lister = w.lister :=
  (sameSettings_after w script).lister

/-! ## What a script announces -/

/-- What each operation of a script announces, and its result. -/
def log (w : Workbench M) : Script → List (List Change × Except BenchError Unit)
  | [] => []
  | o :: script =>
    let outcome := w.perform o.1 o.2
    outcome.entry :: outcome.bench.log script

/-- The changes that a script announces. -/
def announced (w : Workbench M) (script : Script) : List Change :=
  (w.log script).flatMap (·.1)

theorem log_cons (w : Workbench M) (o : Nat × Operation) (script : Script) :
    w.log (o :: script) = (w.perform o.1 o.2).entry :: (w.perform o.1 o.2).bench.log script := rfl

theorem log_append (w : Workbench M) (script later : Script) :
    w.log (script ++ later) = w.log script ++ (w.after script).log later := by
  induction script generalizing w with
  | nil => rfl
  | cons o script ih => exact congrArg (List.cons _) (ih _)

theorem announced_cons (w : Workbench M) (o : Nat × Operation) (script : Script) :
    w.announced (o :: script) =
      (w.perform o.1 o.2).changes ++ (w.perform o.1 o.2).bench.announced script :=
  List.flatMap_cons

theorem announced_append (w : Workbench M) (script later : Script) :
    w.announced (script ++ later) = w.announced script ++ (w.after script).announced later := by
  unfold announced
  rw [log_append, List.flatMap_append]

end Workbench

end Trainer51
