import Trainer51.Proofs.Workbench.Moves

/-!
# The panel never drifts

The panel and the length of the memory table are kept beside the machine, not computed when they
are shown.  Every move either takes a new reading or leaves alone all that a reading depends on, so
after every script they are those of the machine as it is.

    (w.after script).panel = Panel.ofReading (.take machine space)          (panel_after_new)
-/

namespace Trainer51.Workbench

variable {M : Type} [Machine M]

/-- The panel shows the machine as it is, and the window is on all of its cells. -/
structure Current (w : Workbench M) : Prop where
  panel : w.panel = Panel.ofReading (.take w.machine w.space)
  window : w.window.length = w.panel.memory.size

/-! ## Lemmas -/

/-- Whatever was on the panel before, a new reading is current. -/
theorem current_reread (w : Workbench M) : w.reread.Current := ⟨rfl, rfl⟩

theorem Current.address {w : Workbench M} (h : w.Current) :
    w.panel.address = Machine.pc w.machine := by
  rw [h.panel]
  rfl

/-- Only the machine, the space, the panel and the length of the window matter. -/
theorem Current.congr {w v : Workbench M} (h : w.Current) (machine : v.machine = w.machine)
    (space : v.space = w.space) (panel : v.panel = w.panel)
    (window : v.window.length = w.window.length) : v.Current where
  panel := by rw [panel, machine, space]; exact h.panel
  window := by rw [window, panel]; exact h.window

theorem Move.current {w : Workbench M} {o : Outcome M (Except BenchError Unit)} (move : Move w o)
    (h : w.Current) : o.bench.Current := by
  cases move with
  | loaded | unloaded | stepped | halted => exact current_reread _
  | reset | refreshed | spaceSelected => exact current_reread _
  | pressed | released | allReleased => exact current_reread _
  | nothing => exact h
  | begun | ended | rowSelected | scrolled => exact h.congr rfl rfl rfl rfl

theorem current_after_new (machine : M) (lister : Lister) (s : Settings) (script : Script) :
    ((new machine lister s).after script).Current :=
  after_of_move (fun _ _ move => move.current) _ (current_reread _) script

/-! ## The panel after every script -/

/-- **The panel never drifts.**  Whatever was asked for, failing operations included, the panel is
that of the machine in the space shown now, and the window is on as many cells as it has. -/
theorem panel_after_new (machine : M) (lister : Lister) (s : Settings) (script : Script) :
    let w := (new machine lister s).after script
    w.panel = Panel.ofReading (.take w.machine w.space) ∧
      w.window.length = w.panel.memory.cells.length := by
  have h := current_after_new machine lister s script
  exact ⟨h.panel, by rw [h.window]; simp [MemoryTable.cells, MemoryTable.size]⟩

end Trainer51.Workbench
