import Trainer51.Proofs.Dsm51.Load

/-!
# A load erases history

A board that loads a program starts over as if it had just been switched on, and so does the
workbench around it.  Of what was there before only the extent of the window and the number of
timers issued are left, and the settings, which no operation changes.  Those who listen to the
changes are no part of a workbench, so they stay whatever it does.

    (w.load file).bench = (v.load file).bench.inheriting w            (load_of_sameSettings)
-/

namespace Trainer51

theorem MemoryWindow.setLength_reset (w : MemoryWindow) (length : Nat) :
    w.reset.setLength length = { w with offset := 0, length } := by
  show MemoryWindow.mk w.rowHeight w.extent (min 0 _) length = _
  rw [Nat.zero_min]

namespace Workbench

/-! ## Settings -/

/-- The machine has no say in the settings. -/
theorem sameSettings_new {M : Type} [Machine M] (m m' : M) (lister : Lister) (s : Settings) :
    (new m lister s).SameSettings (new m' lister s) :=
  ⟨rfl, rfl, rfl, rfl, rfl⟩

/-! ## Loading a board -/

/-- A workbench with what a load lets survive of another one: the extent of the window and the
number of timers issued. -/
def inheriting {M : Type} (w old : Workbench M) : Workbench M :=
  { w with
    window := { w.window with extent := old.window.extent }
    timersIssued := old.timersIssued }

/-- Loaded with the same file, two boards with the same settings become the same but for what
survives a load. -/
theorem load_of_sameSettings {w v : Workbench Dsm51} {file : List Byte} {image : Image}
    (same : w.SameSettings v) (format : w.machine.format = v.machine.format)
    (lister : v.lister = Dsm51.lister v.machine.format)
    (h : Image.parse v.machine.format file = .ok image) :
    (w.load file).bench = (v.load file).bench.inheriting w := by
  have lister' : w.lister = Dsm51.lister w.machine.format := by rw [same.lister, lister, format]
  rw [load_of_parse lister' (by rw [format, h]), load_of_parse lister h, format]
  -- every field is now a new one, a setting or one that is inherited
  simp only [announce, reread, followPc, clear, inheriting, HeldKeys.forget,
    MemoryWindow.setLength_reset, same.lister, same.rowHeight, same.keyRelease, same.cadence,
    same.targetLimit]

/-- **A load erases history.**  When a board with any history loads a file, it is the board that
loads it when switched on, and the workbench is that of a board just switched on that has loaded
it, but for the extent of the window and the number of timers issued, which stay as they were. -/
theorem load_erases_history (d : Dsm51) (s : Settings) (history : Script) (file : List Byte)
    (image : Image) (h : Image.parse d.format file = .ok image) :
    let used := (new d (Dsm51.lister d.format) s).after history
    let fresh := new (Dsm51.new d.format) (Dsm51.lister d.format) s
    (used.load file).result = .ok () ∧ (fresh.load file).result = .ok () ∧
      (used.load file).bench.machine = (Machine.load (Dsm51.new d.format) file).1 ∧
      (used.load file).bench.mode = .idle ∧
      (used.load file).bench = (fresh.load file).bench.inheriting used := by
  intro used fresh
  have format : used.machine.format = d.format :=
    machine_after (Dsm51.keeps_format d.format) _ rfl history
  have lister : used.lister = Dsm51.lister used.machine.format := by
    rw [format]
    exact lister_after _ history
  have parsed : Image.parse used.machine.format file = .ok image := by rw [format, h]
  have same : used.SameSettings fresh :=
    (sameSettings_after (new d (Dsm51.lister d.format) s) history).trans (sameSettings_new _ _ _ _)
  have loaded := load_of_parse lister parsed
  have loaded_fresh : fresh.load file = _ := load_of_parse rfl h
  refine ⟨?_, ?_, ?_, ?_, load_of_sameSettings same format rfl h⟩
  · rw [loaded]
    rfl
  · rw [loaded_fresh]
    rfl
  · rw [loaded, Dsm51.load_of_parse (show Image.parse (Dsm51.new d.format).format file = _ from h)]
    simp only [announce, format]
    rfl
  · rw [loaded]
    rfl

/-- The middle of a run, with a key held and the end of another space shown. -/
def midway : Script :=
  [(0, .command (.load [0x80, 0xFE])), (0, .command .run), (500, .poll),
    (600, .command (.pressKey (.matrix .enter))), (700, .selectSpace .xram),
    (800, .command (.scroll 65535)), (900, .resizeWindow 8)]

/-- Nothing is left of a run, a held key and another program. -/
theorem load_erases_history_midway :
    let d := Dsm51.new .binary
    let used := (new d (Dsm51.lister d.format) {}).after midway
    let fresh := new (Dsm51.new d.format) (Dsm51.lister d.format) {}
    Image.parse d.format [0x00] = .ok (Image.empty.write 0 [0x00]) ∧
      (used.load [0x00]).result = .ok () ∧
      (used.load [0x00]).bench = (fresh.load [0x00]).bench.inheriting used := by
  intro d used fresh
  have parsed : Image.parse d.format [0x00] = .ok (Image.empty.write 0 [0x00]) := rfl
  have erased := load_erases_history d {} midway [0x00] _ parsed
  exact ⟨parsed, erased.1, erased.2.2.2.2⟩

end Workbench

end Trainer51
