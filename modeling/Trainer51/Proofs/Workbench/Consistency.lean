import Trainer51.Proofs.Listing.Lookup
import Trainer51.Proofs.Workbench.Runs
import Trainer51.Proofs.Workbench.View

/-!
# The view of a program is of the program that is there

The selection, the run in progress and the window all refer to something that can be taken away
under them: rows of a listing, a program, the cells of a memory space.  Whatever takes it away
takes them along, also when a load fails halfway.

    a selected address is where a row starts                                (Move.selected)
    a run has a program to run                                              (Move.program)
    a run to a target counts no more steps than it may take                 (Move.withinLimit)
    the window does not go beyond the last cell                             (Move.fits)
    all of it after every script                                            (consistent_after_new)
-/

namespace Trainer51

theorem Listing.exists_row {listing : Listing} {a : Word}
    (h : (listing.index? a).isSome = true) : ∃ row ∈ listing.rows, row.address = a := by
  have rows : ofRows listing.rows.toList = listing := by simp [ofRows]
  rw [← rows, index?_isSome_iff] at h
  simpa using h

namespace Workbench

variable {M : Type} [Machine M] {w : Workbench M} {o : Outcome M (Except BenchError Unit)}

/-! ## The selection -/

/-- A selected address is where a row of the listing starts. -/
def SelectedStarts (w : Workbench M) : Prop :=
  ∀ a, w.cursor.selected = some a → ∃ row ∈ w.listing.rows, row.address = a

theorem Move.selected (move : Move w o) (h : w.SelectedStarts) : o.bench.SelectedStarts := by
  cases move with
  | loaded | unloaded => exact fun a selected => nomatch selected
  | rowSelected address row =>
    intro a selected
    cases selected
    exact Listing.exists_row row
  | nothing | stepped | halted | begun | ended | reset | refreshed => exact h
  | spaceSelected | scrolled | pressed | released | allReleased => exact h

/-! ## The run -/

/-- A run is only in progress with a program to run. -/
def RunsProgram (w : Workbench M) : Prop := w.mode ≠ .idle → w.listing.isEmpty = false

theorem Move.program (move : Move w o) (h : w.RunsProgram) : o.bench.RunsProgram := by
  cases move with
  | loaded | unloaded | halted | ended | reset => exact fun active => absurd rfl active
  | begun now run kind program idle => exact fun _ => program
  | stepped machine run same step counts =>
    exact fun active => h fun idle => active (same.mode.trans idle)
  | nothing | refreshed | spaceSelected | rowSelected | scrolled => exact h
  | pressed | released | allReleased => exact h

/-- A run to a target has not taken more steps than it may. -/
def WithinLimit (w : Workbench M) : Prop :=
  ∀ limit ticks, w.targetLimit = some limit → w.run.ticks? = some ticks → ticks ≤ limit

omit [Machine M] in
/-- A step is only counted below the limit. -/
theorem Counts.withinLimit {run : RunState} (counts : w.Counts run) (h : w.WithinLimit) :
    ({ w with run } : Workbench M).WithinLimit := by
  intro limit ticks limited taken
  obtain same | ⟨before, was, below, now⟩ := counts
  · exact h limit ticks limited (same.symm.trans taken)
  · cases now.symm.trans taken
    rw [atLimit, limited] at below
    have less : before < limit := by simpa using below
    exact less

theorem Move.withinLimit (move : Move w o) (h : w.WithinLimit) : o.bench.WithinLimit := by
  cases move with
  | loaded | unloaded | halted | ended | reset => exact fun _ _ _ taken => nomatch taken
  | stepped machine run same step counts => exact counts.withinLimit h
  | begun now run kind program idle =>
    intro limit ticks limited taken
    obtain rfl | ⟨target, rfl⟩ := kind
    · cases taken
    · cases taken
      exact Nat.zero_le limit
  | nothing | refreshed | spaceSelected | rowSelected | scrolled => exact h
  | pressed | released | allReleased => exact h

/-! ## The window -/

theorem Move.fits (move : Move w o) (h : w.window.Fits) : o.bench.window.Fits := by
  cases move with
  | loaded | unloaded | stepped | halted => exact MemoryWindow.fits_setLength _ _
  | reset | refreshed | spaceSelected => exact MemoryWindow.fits_setLength _ _
  | pressed | released | allReleased => exact MemoryWindow.fits_setLength _ _
  | scrolled extent offset fits => exact fits h
  | nothing | begun | ended | rowSelected => exact h

/-! ## After every script -/

/-- All that refers to the program or to the memory refers to what is there. -/
structure Consistent (w : Workbench M) : Prop where
  selected : w.SelectedStarts
  program : w.RunsProgram
  limit : w.WithinLimit
  /-- The greatest offset is that of the memory space as it is now. -/
  window : w.window.offset ≤
    min ((Machine.memory w.machine w.space).size * w.window.rowHeight) MemoryWindow.offsetLimit -
      w.window.extent

/-- **All that refers to the program refers to the one that is there.**  Whatever was asked for,
loads included that failed after the old program was gone: a selected address is where a row of the
listing starts, only a program that has rows is run, a run to a target does not count beyond its
limit, and the window does not go beyond the end of the memory space. -/
theorem consistent_after_new (machine : M) (lister : Lister) (s : Settings) (script : Script) :
    let w := (new machine lister s).after script
    w.targetLimit = s.targetLimit ∧ w.Consistent := by
  intro w
  have current : w.Current := current_after_new machine lister s script
  have unselected : (new machine lister s).cursor.selected = none := rfl
  have idle : (new machine lister s).run = .idle := rfl
  refine ⟨(sameSettings_after (new machine lister s) script).targetLimit, ?_⟩
  constructor
  case selected =>
    refine after_of_move (fun _ _ move => move.selected) _ ?_ script
    exact fun a selected => nomatch unselected.symm.trans selected
  case program =>
    refine after_of_move (fun _ _ move => move.program) _ ?_ script
    exact fun active => absurd rfl active
  case limit =>
    refine after_of_move (fun _ _ move => move.withinLimit) _ ?_ script
    intro limit ticks limited taken
    rw [idle] at taken
    cases taken
  case window =>
    have fits : w.window.Fits :=
      after_of_move (p := fun v => v.window.Fits) (fun _ _ move => move.fits) _
        (MemoryWindow.fits_setLength _ _) script
    have length : w.window.length = (Machine.memory w.machine w.space).size := by
      rw [current.window, current.panel]
      rfl
    rw [← length]
    exact fits

/-- A load ends the run to the selected row and takes the selection away. -/
example :
    let load : Nat × Operation := (0, .command (.load [0x00]))
    let w := oneNop.after [load, (0, .command (.selectRow 0)), (0, .command .runToTarget)]
    w.run.target? = some 0 ∧ (w.after [load]).mode = .idle ∧
      (w.after [load]).cursor.selected = none := by
  decide +kernel

end Workbench

end Trainer51
