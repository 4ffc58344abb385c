import Trainer51.Proofs.Chip.Footprint
import Trainer51.Proofs.Dsm51.ProgramMemory
import Trainer51.Proofs.Dsm51.Step
import Trainer51.Proofs.Instruction.Course

/-!
# The listing predicts execution

The instruction that a row of the listing shows is the one that a board with the listed program
executes at the row's address, and the row's text says where the program goes on.

    (Fetch.ofCode image.memory.read row.address).decode.text = row.text        (fetch_of_row)
    Machine.step d succeeds and goes on as the row says               (listing_predicts_execution)
-/

namespace Trainer51

/-! ## Reading a row -/

namespace Row

/-- The name of the row's instruction; `DB` for a byte that belongs to none. -/
def mnemonic (row : Row) : String := firstWord row.text

/-- The address that the row's text ends with. -/
def printed? (row : Row) : Option Word := readAddress? (lastWord row.text)

/-- The address behind the row's bytes. -/
def next (row : Row) : Word := row.address + UInt16.ofNat row.bytes.length

/-- The row says that a program that executes it with the registers of `core` goes on at `w`. -/
def Predicts (row : Row) (core : Core) (w : Word) : Prop :=
  (Course.ofMnemonic row.mnemonic).LeadsTo core row.printed? row.next w

theorem Listed.eq_ofInstruction {row : Row} (h : row.Listed) (hm : row.mnemonic ≠ "DB") :
    row = .ofInstruction row.address row.bytes ∧
      row.bytes.length = opcodeLength (row.bytes.headD 0) := by
  cases h with
  | instruction address bytes length => exact ⟨rfl, length⟩
  | data address b => exact absurd (firstWord_dataText b) hm

end Row

/-! ## The fetched instruction -/

/-- Program memory has the bytes of a row where the row says. -/
theorem Image.holds_row (image : Image) {row : Row} (hr : row ∈ image.rows) :
    Holds image.memory.read row.address row.bytes := by
  intro i b h
  have placed : (row.address + UInt16.ofNat i, b) ∈ row.placed :=
    (mem_placeFrom _ _ _ _).2 ⟨i, h, rfl⟩
  have cell : (row.address + UInt16.ofNat i, b) ∈ image.toList :=
    image.rows_placed ▸ List.mem_flatMap.2 ⟨row, hr, placed⟩
  rw [read_memory, (image.mem_toList _ _).1 cell]
  rfl

/-- The instruction at a row's address is the one that the row shows. -/
theorem Image.fetch_of_row (image : Image) {row : Row} (hr : row ∈ image.rows)
    (hm : row.mnemonic ≠ "DB") :
    let fetch := Fetch.ofCode image.memory.read row.address
    fetch.decode.text = row.text ∧ fetch.next = row.next ∧ fetch.decode ≠ .reserved := by
  intro fetch
  obtain ⟨shown, whole⟩ := (image.rows_listed row hr).eq_ofInstruction hm
  obtain ⟨same, length⟩ := Fetch.decode_ofBytes whole (image.holds_row hr)
  have text : fetch.decode.text = row.text := by
    rw [← same]
    exact (congrArg Row.text shown).symm
  refine ⟨text, ?_, ?_⟩
  · show row.address + UInt16.ofNat fetch.decode.length = _
    rw [← same]
    exact congrArg (row.address + UInt16.ofNat ·) length
  · intro reserved
    refine hm ?_
    unfold Row.mnemonic
    rw [← text, reserved]
    exact firstWord_dataText 0xA5

/-! ## One step -/

theorem Chip.taken?_eq {X P : Type} [RegisterBus P] (c : Chip X P) :
    c.taken? = c.entry?.map (·.1) := by
  unfold taken? entry?
  split <;> rfl

/-- A row with the text of an instruction says where it goes on. -/
theorem Row.predicts_of_leadsTo {core : Core} {row : Row} {i : Instruction} {w : Word}
    (text : i.text = row.text) (h : i.course.LeadsTo core i.printed? row.next w) :
    row.Predicts core w := by
  unfold Predicts mnemonic printed?
  rw [← text, i.course_text]
  exact h.mono fun t => Instruction.read_printed

namespace Dsm51

theorem core_settle (d : Dsm51) (cycles : Nat) : (d.settle cycles).core = d.core := by
  obtain ⟨display, latched⟩ := latchDisplay_eq (d.setPeripherals _)
  unfold settle
  dsimp only
  rw [latched]
  rfl

/-- Without an interrupt a step executes the instruction at the program counter. -/
theorem step_of_no_vector {d : Dsm51} (hv : d.vector? = none) {fetch : Fetch}
    (hf : fetch = Fetch.ofCode d.code.read (Machine.pc d)) (hr : fetch.decode ≠ .reserved) :
    ∃ d', Machine.step d = (d', .ok ()) ∧
      Machine.pc d' = (d.chip.target? fetch.decode).getD fetch.next := by
  have noEntry : d.chip.entry? = none := by
    unfold vector? at hv
    rw [Chip.taken?_eq] at hv
    simpa using hv
  obtain ⟨c, n, stepped, flow⟩ := Chip.step_of_no_entry noEntry hf hr
  obtain ⟨chip, cycles, hc, hd, hok⟩ | ⟨chip, e, hc, -, -⟩ :=
    step_cases (Prod.eta (Machine.step d)).symm
  · cases stepped.symm.trans hc
    refine ⟨_, Prod.ext hd hok, ?_⟩
    show (settle _ _).core.pc = _
    rw [core_settle]
    exact congrArg Flow.pc flow
  · cases stepped.symm.trans hc

end Dsm51

/-! ## Prediction -/

/-- **The listing predicts execution.**  Where the board's program has a row, the instruction it
fetches has the row's text, and unless an interrupt is taken the step succeeds and goes on where the
row says. -/
theorem listing_predicts_execution {loader d : Dsm51} {file : List Byte} {rows : List Row}
    {row : Row} (listed : Dsm51.lister loader.format file = .ok rows) (hr : row ∈ rows)
    (hm : row.mnemonic ≠ "DB") (code : d.code = (Machine.load loader file).1.code)
    (pc : Machine.pc d = row.address) (vector : d.vector? = none) :
    (Fetch.ofCode d.code.read (Machine.pc d)).decode.text = row.text ∧
      ∃ d', Machine.step d = (d', .ok ()) ∧ row.Predicts d.core (Machine.pc d') := by
  obtain ⟨image, parsed, rfl⟩ := Dsm51.parse_of_lister listed
  rw [Dsm51.load_of_parse parsed] at code
  obtain ⟨text, next, reserved⟩ := image.fetch_of_row hr hm
  rw [← pc, ← show d.code = image.memory from code] at text next reserved
  refine ⟨text, ?_⟩
  obtain ⟨d', stepped, went⟩ := Dsm51.step_of_no_vector vector rfl reserved
  refine ⟨d', stepped, ?_⟩
  rw [went, next]
  exact Row.predicts_of_leadsTo text (d.chip.leadsTo_target _ row.next)

/-- A jump back to itself while the accumulator is not 5. -/
def waitingProgram : List Byte := [0xB4, 0x05, 0xFD]

theorem rows_waitingProgram :
    (Image.empty.write 0 waitingProgram).rows = [⟨0, waitingProgram, "CJNE A, #5, 0h"⟩] := by
  unfold Image.rows Image.runs
  rw [Image.toList_write_empty (by decide)]
  rfl

theorem listing_predicts_execution_waiting :
    let loader := Dsm51.new .binary
    let d := (Machine.load loader waitingProgram).1
    let row : Row := ⟨0, waitingProgram, "CJNE A, #5, 0h"⟩
    row.mnemonic ≠ "DB" ∧ Machine.pc d = row.address ∧ d.vector? = none ∧
      (Fetch.ofCode d.code.read (Machine.pc d)).decode.text = row.text ∧
      ∃ d', Machine.step d = (d', .ok ()) ∧ row.Predicts d.core (Machine.pc d') := by
  intro loader d row
  have parsed : Image.parse .binary waitingProgram = .ok (Image.empty.write 0 waitingProgram) := rfl
  have listed : Dsm51.lister loader.format waitingProgram = .ok [row] := by
    rw [← rows_waitingProgram]
    exact Dsm51.lister_of_parse parsed
  have data : row.mnemonic ≠ "DB" := by decide
  have vector : (Machine.load (Dsm51.new .binary) waitingProgram).1.vector? = none := rfl
  exact ⟨data, rfl, vector,
    listing_predicts_execution listed List.mem_cons_self data rfl rfl vector⟩

end Trainer51
