import Trainer51.Proofs.Workbench.Runs
import Trainer51.Proofs.Workbench.View

/-!
# What is announced

Who shows a workbench looks at it again only when a change is announced.  So whatever an operation
does has to be announced, and an observer that hears nothing but the changes has to be able to
follow the workbench by them.

    an operation announces nothing and does nothing, or announces one change; only the release
      of all keys announces as many as were held                              (accounted_after_new)
    the mode that an observer works out is the mode of the workbench          (modes_after_new)
-/

namespace Trainer51

/-- The mode that an observer expects after a change. -/
def RunMode.heard (mode : RunMode) : Change → RunMode
  | .modeChanged mode => mode
  | .loaded _ | .reset | .halted _ => .idle
  | _ => mode

theorem RunMode.foldl_heard_released (mode : RunMode) (keys : List Key) :
    (keys.map Change.keyReleased).foldl heard mode = mode := by
  induction keys with
  | nil => rfl
  | cons key keys ih => exact ih

/-- The key that a change is about. -/
def Change.key? : Change → Option Key
  | .keyPressed key | .keyReleased key => some key
  | _ => none

/-- The key that is to be pressed or released. -/
def Operation.key? : Operation → Option Key
  | .command (.pressKey key) | .command (.releaseKey key) => some key
  | _ => none

namespace Workbench

variable {M : Type} [Machine M]

/-! ## At most one change -/

/-- No more than one change is announced. -/
def Brief {α : Type} (o : Outcome M α) : Prop := o.changes.length ≤ 1

/-- No more than one change is announced, and none about a key. -/
structure Keyless {α : Type} (o : Outcome M α) : Prop where
  brief : Brief o
  keyless : ∀ change ∈ o.changes, change.key? = none

omit [Machine M] in
theorem keyless_unchanged {α : Type} (w : Workbench M) (result : α) :
    Keyless (w.unchanged result) :=
  ⟨Nat.zero_le 1, fun _ h => nomatch h⟩

omit [Machine M] in
theorem keyless_announce {α : Type} (w : Workbench M) {change : Change} (h : change.key? = none)
    (result : α) : Keyless (w.announce change result) := by
  refine ⟨Nat.le_refl 1, fun change' h' => ?_⟩
  rw [List.mem_singleton.1 h', h]

omit [Machine M] in
theorem Keyless.done {α : Type} {o : Outcome M α} (h : Keyless o) : Keyless o.done :=
  ⟨h.brief, h.keyless⟩

theorem keyless_load (w : Workbench M) (image : List Byte) : Keyless (w.load image) := by
  unfold load
  split
  · exact keyless_unchanged _ _
  · dsimp only
    split
    · exact keyless_announce _ rfl _
    · exact keyless_announce _ rfl _

theorem keyless_execute (w : Workbench M) : Keyless w.execute := by
  unfold execute
  split
  · exact keyless_announce _ rfl _
  · exact keyless_announce _ rfl _

theorem keyless_step (w : Workbench M) : Keyless w.step := by
  unfold step
  split
  · exact keyless_unchanged _ _
  · exact keyless_execute w

omit [Machine M] in
theorem keyless_stop (w : Workbench M) : Keyless w.stop := by
  unfold stop
  split
  · exact keyless_unchanged _ _
  · exact keyless_announce _ rfl _

omit [Machine M] in
theorem keyless_pause (w : Workbench M) : Keyless w.pause := by
  unfold pause
  split
  · exact keyless_stop w
  · exact keyless_unchanged _ _

omit [Machine M] in
theorem keyless_toggleRun (w : Workbench M) (now : Nat) : Keyless (w.toggleRun now) := by
  unfold toggleRun
  split
  · exact keyless_unchanged _ _
  · split
    · exact keyless_pause w
    · exact keyless_unchanged _ _
    · exact keyless_announce _ rfl _

omit [Machine M] in
theorem keyless_runTo (w : Workbench M) (target : Word) (now : Nat) :
    Keyless (w.runTo target now) := by
  unfold runTo
  split
  · exact keyless_unchanged _ _
  · exact keyless_announce _ rfl _

theorem keyless_tick (w : Workbench M) : Keyless w.tick := by
  unfold tick
  split
  · exact keyless_unchanged _ _
  · exact keyless_execute w
  · split
    · exact keyless_announce _ rfl _
    · exact keyless_execute _

theorem keyless_poll (w : Workbench M) (now : Nat) : Keyless (w.poll now).checked := by
  unfold poll
  split
  · exact keyless_unchanged _ _
  · split
    · exact keyless_unchanged _ _
    · rw [checked_ticked]
      exact keyless_tick _

theorem keyless_fire (w : Workbench M) (handle : Nat) : Keyless (w.fire handle).checked := by
  unfold fire
  split
  · rw [checked_ticked]
    exact keyless_tick w
  · exact keyless_unchanged _ _

/-- An operation without a key of its own announces at most one change, and none about a key. -/
theorem keyless_perform (w : Workbench M) (now : Nat) {operation : Operation}
    (h : operation ≠ .command .releasePointer) (none : operation.key? = none) :
    Keyless (w.perform now operation) := by
  cases operation with
  | poll => exact keyless_poll w now
  | selectSpace space => exact keyless_announce _ rfl _
  | resizeWindow extent =>
    show Keyless (w.resizeWindow extent).done
    unfold resizeWindow
    split
    · exact keyless_unchanged _ _
    · exact keyless_announce _ rfl _
  | command command =>
    cases command with
    | load image => exact keyless_load w image
    | step => exact keyless_step w
    | run => exact (keyless_toggleRun w now).done
    | pause => exact (keyless_pause w).done
    | stop => exact (keyless_stop w).done
    | runToTarget =>
      show Keyless (w.runToSelected now).done
      unfold runToSelected
      split
      · exact (keyless_runTo w _ now).done
      · exact keyless_unchanged _ _
    | runToAddress address => exact (keyless_runTo w address now).done
    | fire handle => exact keyless_fire w handle
    | refresh | reset | scroll | scrollTo => exact keyless_announce _ rfl _
    | selectSpace name =>
      show Keyless (w.selectSpaceNamed name)
      unfold selectSpaceNamed
      split
      · exact keyless_announce _ rfl _
      · exact keyless_unchanged _ _
    | selectRow address =>
      show Keyless (w.selectRow address).done
      unfold selectRow
      split
      · exact keyless_announce _ rfl _
      · exact keyless_unchanged _ _
    | pressKey | releaseKey => cases none
    | releasePointer => exact absurd rfl h

theorem pressKey_changes (w : Workbench M) (key : Key) :
    (w.pressKey key).changes = [] ∨ (w.pressKey key).changes = [.keyPressed key] := by
  unfold pressKey
  split
  · exact .inr rfl
  · exact .inl rfl

theorem releaseKey_changes (w : Workbench M) (key : Key) :
    (w.releaseKey key).changes = [] ∨ (w.releaseKey key).changes = [.keyReleased key] := by
  unfold releaseKey
  split
  · exact .inr rfl
  · exact .inl rfl

theorem releaseAllKeys_changes (w : Workbench M) :
    w.releaseAllKeys.changes = [] ∨
      w.keys.keys ≠ [] ∧ w.releaseAllKeys.changes = w.keys.keys.map .keyReleased := by
  unfold releaseAllKeys HeldKeys.releaseAll
  split
  · exact .inl rfl
  · next keys machine released some h =>
    split at h
    · cases h
      exact absurd rfl some
    · cases h
      exact .inr ⟨some, rfl⟩

/-- Only the release of all keys announces more than one change. -/
theorem brief_perform (w : Workbench M) (now : Nat) {operation : Operation}
    (h : operation ≠ .command .releasePointer) : Brief (w.perform now operation) := by
  have one {changes : List Change} {change : Change} (h : changes = [] ∨ changes = [change]) :
      changes.length ≤ 1 := by
    obtain rfl | rfl := h
    · exact Nat.zero_le 1
    · exact Nat.le_refl 1
  by_cases none : operation.key? = none
  · exact (keyless_perform w now h none).brief
  · cases operation with
    | command command =>
      cases command with
      | pressKey key => exact one (w.pressKey_changes key)
      | releaseKey key => exact one (w.releaseKey_changes key)
      | _ => exact absurd rfl none
    | _ => exact absurd rfl none

/-- A change about a key is announced by the operation on that key, or by the release of all
keys. -/
theorem key_of_announced {w : Workbench M} {now : Nat} {operation : Operation} {change : Change}
    {key : Key} (h : change ∈ (w.perform now operation).changes) (about : change.key? = some key) :
    operation.key? = some key ∨ key ∈ w.keys.keys := by
  have only {changes : List Change} {one : Change} (h : changes = [] ∨ changes = [one])
      (hm : change ∈ changes) : change = one := by
    obtain rfl | rfl := h
    · cases hm
    · exact List.mem_singleton.1 hm
  by_cases all : operation = .command .releasePointer
  · subst all
    replace h : change ∈ w.releaseAllKeys.changes := h
    obtain silent | ⟨-, changes⟩ := w.releaseAllKeys_changes
    · rw [silent] at h
      cases h
    · rw [changes] at h
      obtain ⟨released, held, rfl⟩ := List.mem_map.1 h
      cases about
      exact .inr held
  · by_cases none : operation.key? = none
    · rw [(keyless_perform w now all none).keyless change h] at about
      cases about
    · cases operation with
      | command command =>
        cases command with
        | pressKey pressed =>
          obtain rfl := only (w.pressKey_changes pressed) h
          exact .inl about
        | releaseKey released =>
          obtain rfl := only (w.releaseKey_changes released) h
          exact .inl about
        | _ => exact absurd rfl none
      | _ => exact absurd rfl none

/-! ## Nothing unannounced -/

theorem Move.eq_of_silent {w : Workbench M} {o : Outcome M (Except BenchError Unit)}
    (move : Move w o) (silent : o.changes = []) : o.bench = w := by
  cases move with
  | nothing => rfl
  | allReleased anywhere some => exact absurd (List.map_eq_nil_iff.1 silent) some
  | _ => cases silent

/-- The held keys are in order, each once. -/
theorem ascending_after {w : Workbench M} (h : Key.Ascending w.keys.keys) (script : Script) :
    Key.Ascending (w.after script).keys.keys := by
  refine after_of_move (p := fun w => Key.Ascending w.keys.keys) ?_ w h script
  intro w o move h
  cases move with
  | loaded | unloaded | allReleased => exact List.Pairwise.nil
  | pressed key heard => exact Key.ascending_insertInOrder h key
  | released key heard => exact List.Pairwise.filter _ h
  | _ => exact h

/-- What an operation announces accounts for all that it does. -/
inductive Accounted (w : Workbench M) (operation : Operation)
    (o : Outcome M (Except BenchError Unit)) : Prop where
  /-- Nothing is announced and everything is as it was. -/
  | silent (changes : o.changes = []) (bench : o.bench = w)
  | one (change : Change) (changes : o.changes = [change])
      (other : operation ≠ .command .releasePointer)
  /-- The release of each key that was held is announced, in the order of the keys. -/
  | releases (all : operation = .command .releasePointer) (held : w.keys.keys ≠ [])
      (changes : o.changes = w.keys.keys.map .keyReleased) (order : Key.Ascending w.keys.keys)

/-- **No change goes unannounced.**  On a workbench with any history an operation that announces
nothing has changed nothing.  Any other announces exactly one change, but for the release of all
keys, which announces the release of each key that was held, in the order of the keys. -/
theorem accounted_after_new (machine : M) (lister : Lister) (s : Settings) (history : Script)
    (now : Nat) (operation : Operation) :
    let w := (new machine lister s).after history
    w.Accounted operation (w.perform now operation) := by
  intro w
  have move := move_perform w now operation
  by_cases all : operation = .command .releasePointer
  · subst all
    obtain silent | ⟨held, changes⟩ := releaseAllKeys_changes w
    · exact .silent silent (move.eq_of_silent silent)
    · have none : Key.Ascending (new machine lister s).keys.keys := List.Pairwise.nil
      exact .releases rfl held changes (ascending_after none history)
  · have brief := brief_perform w now all
    cases h : (w.perform now operation).changes with
    | nil => exact .silent h (move.eq_of_silent h)
    | cons change changes =>
      unfold Brief at brief
      rw [h, List.length_cons] at brief
      obtain rfl := List.eq_nil_of_length_eq_zero (Nat.le_zero.1 (Nat.le_of_succ_le_succ brief))
      exact .one change h all

/-- Keys are released in their own order, not in the order in which they were pressed. -/
example :
    let press (key : MatrixKey) : Nat × Operation := (0, .command (.pressKey (.matrix key)))
    let w := oneNop.after [press .enter, press (.digit 7), press .left, press (.digit 7)]
    (w.perform 0 (.command .releasePointer)).changes =
      [.keyReleased (.matrix (.digit 7)), .keyReleased (.matrix .left),
        .keyReleased (.matrix .enter)] := by
  decide +kernel

/-! ## Following the mode -/

theorem Move.mode {w : Workbench M} {o : Outcome M (Except BenchError Unit)} (move : Move w o) :
    o.changes.foldl RunMode.heard w.mode = o.bench.mode := by
  cases move with
  | stepped machine run same step => exact same.mode.symm
  | allReleased => exact RunMode.foldl_heard_released _ _
  | _ => rfl

theorem modes_after (w : Workbench M) (script : Script) :
    (w.announced script).foldl RunMode.heard w.mode = (w.after script).mode := by
  induction script generalizing w with
  | nil => rfl
  | cons o script ih =>
    rw [announced_cons, List.foldl_append, (move_perform w o.1 o.2).mode]
    exact ih _

/-! ## What a change says -/

/-- What a change says of a workbench is so. -/
def Confirms (w : Workbench M) : Change → Prop
  | .stepped pc => w.cursor.current = pc ∧ w.panel.address = pc
  | .rowSelected address => w.cursor.selected = some address
  | .spaceChanged space => w.panel.memory.space = space
  | .modeChanged mode => w.mode = mode
  | .loaded rows => w.listing.size = rows
  | .keyPressed key => w.keys.isHeld key
  | .keyReleased key => w.keys.isHeld key = false
  | _ => True

theorem Move.confirms {w : Workbench M} {o : Outcome M (Except BenchError Unit)} (move : Move w o)
    {change : Change} (h : change ∈ o.changes) : o.bench.Confirms change := by
  cases move with
  | nothing => cases h
  | allReleased =>
    obtain ⟨key, -, rfl⟩ := List.mem_map.1 h
    rfl
  | pressed key heard =>
    obtain rfl := List.mem_singleton.1 h
    exact List.contains_iff_mem.2 ((Key.mem_insertInOrder key key _).2 (.inl rfl))
  | released key heard =>
    obtain rfl := List.mem_singleton.1 h
    simp [Confirms, announce, keyed, reread, HeldKeys.isHeld]
  | stepped =>
    obtain rfl := List.mem_singleton.1 h
    exact ⟨rfl, rfl⟩
  | loaded | unloaded | begun | ended | spaceSelected | rowSelected =>
    obtain rfl := List.mem_singleton.1 h
    rfl
  | halted | reset | refreshed | scrolled =>
    obtain rfl := List.mem_singleton.1 h
    trivial

/-- **An observer can follow the run mode.**  Whatever was asked for, failing operations included,
the changes announced since the workbench was new lead from the idle mode to the mode it is in; and
what a change says is so once the operation that announces it is over. -/
theorem modes_after_new (machine : M) (lister : Lister) (s : Settings) (script : Script) :
    let w := (new machine lister s).after script
    ((new machine lister s).announced script).foldl RunMode.heard .idle = w.mode ∧
      ∀ now operation, ∀ change ∈ (w.perform now operation).changes,
        (w.perform now operation).bench.Confirms change := by
  intro w
  constructor
  · exact modes_after (new machine lister s) script
  · intro now operation change h
    exact (move_perform w now operation).confirms h

/-- A run that has begun, and a row that is selected while it is in progress. -/
theorem modes_after_new_running :
    let script : Script := [(0, .command (.load [0x00])), (0, .command .run)]
    let w := oneNop.after script
    let o := w.perform 100 (.command (.selectRow 0))
    oneNop.announced script = [.loaded 1, .modeChanged .running] ∧ w.mode = .running ∧
      o.changes = [.rowSelected 0] ∧ o.bench.cursor.selected = some 0 := by
  intro script w o
  have announced : oneNop.announced script = [.loaded 1, .modeChanged .running] := by
    decide +kernel
  have selected : o.changes = [.rowSelected 0] := by
    show ((oneNop.after [(0, .command (.load [0x00])), (0, .command .run)]).perform 100
      (.command (.selectRow 0))).changes = _
    decide +kernel
  obtain ⟨followed, confirmed⟩ := modes_after_new oneNop.machine oneNop.lister {} script
  have mode : (oneNop.announced script).foldl RunMode.heard .idle = w.mode := followed
  rw [announced] at mode
  have row : Change.rowSelected 0 ∈ o.changes := by
    rw [selected]
    exact List.mem_singleton.2 rfl
  exact ⟨announced, mode.symm, selected, confirmed 100 (.command (.selectRow 0)) _ row⟩

end Workbench

end Trainer51
