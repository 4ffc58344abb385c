import Trainer51.Proofs.Dsm51.ProgramMemory
import Trainer51.Proofs.Dsm51.Step
import Trainer51.Proofs.Image.Cells
import Trainer51.Proofs.Workbench.Moves

/-!
# A program is loaded whole or not at all

All that can be wrong with a file is found before anything is touched.  What comes after that can
only fail on a machine that does not load what it has checked.  The board loads it, and it accepts
the files that have a listing, so none of them is ever half loaded.

    w.accept file = .ok rows ↔ a listing of the file ∧ the machine accepts it   (accept_eq_ok_iff)
    the operations of the board keep its format                                 (keeps_format)
    (w.load file).result = .ok () ↔ ∃ image, Image.parse format file = .ok image
-/

namespace Trainer51

/-- The machine loads every file that it accepts. -/
def LoadsChecked (M : Type) [Machine M] : Prop :=
  ∀ (m : M) (file : List Byte), Machine.check m file = .ok () →
    (Machine.load (Machine.clearAll m) file).2 = .ok ()

namespace Workbench

variable {M : Type} [Machine M]

/-- A file is loaded just when it is `loadable`; if not, nothing changes or is announced. -/
structure LoadsWhole (w : Workbench M) (file : List Byte) (loadable : Prop) : Prop where
  ok : (w.load file).result = .ok () ↔ loadable
  error : ∀ e, (w.load file).result = .error e →
    (w.load file).bench = w ∧ (w.load file).changes = []

/-! ## Any machine -/

theorem accept_eq_ok_iff (w : Workbench M) (file : List Byte) (rows : List Row) :
    w.accept file = .ok rows ↔
      file ≠ [] ∧ w.lister file = .ok rows ∧ rows ≠ [] ∧ Machine.check w.machine file = .ok () := by
  unfold accept
  by_cases hf : file = []
  · subst hf
    simp
  · rw [if_neg (by simpa using hf)]
    split
    · next e he => simp [he]
    · next he =>
      simp only [he, reduceCtorEq, Except.ok.injEq, false_iff, not_and]
      rintro - rfl h
      exact absurd rfl h
    · next rows' hne he =>
      have hne : rows' ≠ [] := fun h => hne h
      split
      · next e hc => simp [hc]
      · next hc =>
        simp only [he, hc, Except.ok.injEq, and_true]
        constructor
        · rintro rfl
          exact ⟨hf, rfl, hne⟩
        · exact fun h => h.2.1

theorem load_of_accept_error {w : Workbench M} {file : List Byte} {e : LoadError}
    (h : w.accept file = .error e) : w.load file = w.unchanged (.error (.load e)) := by
  simp only [load, h]

theorem load_of_accept_ok {w : Workbench M} {file : List Byte} {rows : List Row} {machine : M}
    (h : w.accept file = .ok rows)
    (load : Machine.load (Machine.clearAll w.machine) file = (machine, .ok ())) :
    w.load file = ({ w.clear with
        machine
        listing := .ofRows rows
        space := .rom
        window := w.window.reset }.followPc.reread).announce (.loaded rows.length) (.ok ()) := by
  have load : Machine.load w.clear.machine file = (machine, .ok ()) := load
  simp only [Workbench.load, h, load]
  rfl

theorem result_of_accept_ok {w : Workbench M} {file : List Byte} {rows : List Row}
    (loads : LoadsChecked M) (h : w.accept file = .ok rows) : (w.load file).result = .ok () := by
  have checked := ((accept_eq_ok_iff w file rows).1 h).2.2.2
  have loaded := loads w.machine file checked
  rw [load_of_accept_ok h (Prod.ext rfl loaded)]
  rfl

/-- The listing and the check decide whether a file is loaded. -/
theorem loadsWhole (loads : LoadsChecked M) (w : Workbench M) (file : List Byte) :
    w.LoadsWhole file (file ≠ [] ∧ (∃ row rows, w.lister file = .ok (row :: rows)) ∧
      Machine.check w.machine file = .ok ()) := by
  cases h : w.accept file with
  | error e =>
    have refused := load_of_accept_error h
    constructor
    case ok =>
      rw [refused]
      refine iff_of_false (fun h => by cases h) ?_
      rintro ⟨hf, ⟨row, rows, hr⟩, hc⟩
      have := (accept_eq_ok_iff w file (row :: rows)).2 ⟨hf, hr, by simp, hc⟩
      cases h.symm.trans this
    case error =>
      intro e' _
      rw [refused]
      exact ⟨rfl, rfl⟩
  | ok rows =>
    have done := result_of_accept_ok loads h
    constructor
    case ok =>
      obtain ⟨hf, hr, hne, hc⟩ := (accept_eq_ok_iff w file rows).1 h
      obtain ⟨row, rows, rfl⟩ := List.exists_cons_of_ne_nil hne
      exact iff_of_true done ⟨hf, ⟨row, rows, hr⟩, hc⟩
    case error =>
      intro e he
      cases done.symm.trans he

end Workbench

/-! ## The board -/

namespace Dsm51

theorem check_eq_ok_iff (d : Dsm51) (file : List Byte) :
    Machine.check d file = .ok () ↔ ∃ image, Image.parse d.format file = .ok image := by
  show Except.mapError MachineError.ofImage (d.check file) = .ok () ↔ _
  unfold check
  cases Image.parse d.format file with
  | error e => exact iff_of_false nofun nofun
  | ok image => exact iff_of_true rfl ⟨image, rfl⟩

theorem loadsChecked : LoadsChecked Dsm51 := by
  intro d file h
  obtain ⟨image, hi⟩ := (check_eq_ok_iff d file).1 h
  have : Image.parse (Machine.clearAll d).format file = .ok image := hi
  rw [load_of_parse this]

theorem format_latchDisplay (d : Dsm51) : d.latchDisplay.format = d.format := by
  obtain ⟨display, h⟩ := d.latchDisplay_eq
  rw [h]

theorem format_step (d : Dsm51) : (Machine.step d).1.format = d.format := by
  obtain ⟨chip, cycles, _, h, _⟩ | ⟨chip, e, _, h, _⟩ := step_cases (Prod.eta (Machine.step d)).symm
  · rw [h]
    exact format_latchDisplay _
  · rw [h]

theorem format_load (d : Dsm51) (file : List Byte) : (Machine.load d file).1.format = d.format := by
  show (d.load file).1.format = d.format
  unfold load
  split <;> rfl

theorem format_drive (d : Dsm51) (b : InputBit) (on : Bool) : (d.drive b on).format = d.format := by
  unfold drive
  split <;> rfl

/-- Nothing that is done to a board changes the format of its files. -/
theorem keeps_format (format : ImageFormat) :
    Workbench.MachineKeeps (fun d : Dsm51 => d.format = format) where
  step d h := (format_step d).trans h
  clearAll _ h := h
  load d file h := (format_load d file).trans h
  clearWorking _ h := h
  drive d b on h := (format_drive d b on).trans h
  refresh _ h := (format_latchDisplay _).trans h

/-- The listing and the check of the board agree on every file. -/
theorem loadable_iff (d : Dsm51) (file : List Byte) :
    (file ≠ [] ∧ (∃ row rows, lister d.format file = .ok (row :: rows)) ∧
      Machine.check d file = .ok ()) ↔ ∃ image, Image.parse d.format file = .ok image := by
  rw [check_eq_ok_iff]
  refine ⟨fun h => h.2.2, ?_⟩
  rintro ⟨image, h⟩
  refine ⟨?_, ?_, image, h⟩
  · rintro rfl
    exact Image.parse_nil _ _ h
  · obtain ⟨row, rows, hr⟩ := List.exists_cons_of_ne_nil (image.rows_ne_nil (Image.toList_parse h))
    exact ⟨row, rows, by rw [lister_of_parse h, hr]⟩

end Dsm51

/-! ## Whole or not at all -/

namespace Workbench

/-- The workbench of a board that has loaded an image. -/
theorem load_of_parse {w : Workbench Dsm51} {file : List Byte} {image : Image}
    (lister : w.lister = Dsm51.lister w.machine.format)
    (h : Image.parse w.machine.format file = .ok image) :
    w.load file =
      { w.clear with
        machine := { Dsm51.new w.machine.format with code := image.memory }
        listing := .ofRows image.rows
        space := .rom
        window := w.window.reset }.followPc.reread.announce (.loaded image.rows.length) (.ok ()) := by
  have accepted : w.accept file = .ok image.rows := by
    refine (accept_eq_ok_iff w file image.rows).2 ⟨?_, ?_, ?_, ?_⟩
    · rintro rfl
      exact Image.parse_nil _ _ h
    · rw [lister, Dsm51.lister_of_parse h]
    · exact image.rows_ne_nil (Image.toList_parse h)
    · exact (Dsm51.check_eq_ok_iff w.machine file).2 ⟨image, h⟩
  have parsed : Image.parse (Machine.clearAll w.machine).format file = .ok image := h
  exact load_of_accept_ok accepted (Dsm51.load_of_parse parsed)

/-- **A program is loaded whole or not at all**, by a board with any history and by every machine
that loads what it has checked. -/
theorem load_whole_or_not_at_all :
    (∀ (d : Dsm51) (s : Settings) (script : Script) (file : List Byte),
      ((new d (Dsm51.lister d.format) s).after script).LoadsWhole file
        (∃ image, Image.parse d.format file = .ok image)) ∧
    (∀ (M : Type) [Machine M], LoadsChecked M → ∀ (w : Workbench M) (file : List Byte),
      w.LoadsWhole file (file ≠ [] ∧ (∃ row rows, w.lister file = .ok (row :: rows)) ∧
        Machine.check w.machine file = .ok ())) := by
  constructor
  · intro d s script file
    have w := loadsWhole Dsm51.loadsChecked ((new d (Dsm51.lister d.format) s).after script) file
    have format : ((new d (Dsm51.lister d.format) s).after script).machine.format = d.format :=
      machine_after (Dsm51.keeps_format d.format) _ rfl script
    have lister := lister_after (new d (Dsm51.lister d.format) s) script
    rw [lister] at w
    have agree := Dsm51.loadable_iff
      ((new d (Dsm51.lister d.format) s).after script).machine file
    rw [format] at agree
    exact ⟨w.ok.trans agree, w.error⟩
  · intro M _ loads w file
    exact loadsWhole loads w file

/-- The board loads a record, and refuses it with another checksum. -/
theorem load_whole_or_not_at_all_checksum :
    let w := new (Dsm51.new .intelHex) (Dsm51.lister .intelHex) {}
    let whole := ":0100000000FF\n".toUTF8.data.toList
    let broken := ":0100000000FE\n".toUTF8.data.toList
    LoadsChecked Dsm51 ∧ (w.load whole).result = .ok () ∧
      (w.load broken).bench = w ∧ (w.load broken).changes = [] := by
  intro w whole broken
  have loads := Dsm51.loadsChecked
  have parsed : Image.parse .intelHex whole = .ok (Image.empty.write 0 [0x00]) := rfl
  refine ⟨loads, ?_, ?_⟩
  · exact (load_whole_or_not_at_all.2 Dsm51 loads w whole).ok.2
      ((Dsm51.loadable_iff w.machine whole).2 ⟨_, parsed⟩)
  · exact (load_whole_or_not_at_all.1 (Dsm51.new .intelHex) {} [] broken).error _ rfl

end Workbench

end Trainer51
