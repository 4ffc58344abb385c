import Trainer51.Instruction.Decode
import Mathlib.Tactic.IntervalCases

/-!
# An instruction is decoded from its own bytes

The opcode alone settles how long an instruction is and how long it takes, so the tables of the
opcodes say the same as the decoded instruction, and the bytes behind the instruction do not matter.

    f.length = opcodeLength f.opcode                                             (length_eq)
    f.decode.cycles = opcodeCycles f.opcode                                      (cycles_eq)
    f.Agrees g f.length → f.decode = g.decode                                    (decode_congr)

Both are shown for each column of the opcode table, row by row (`Alike`).
-/

namespace Trainer51

/-- Machine cycles taken by an instruction that starts with `opcode`. -/
def opcodeCycles (opcode : Byte) : Nat :=
  if opcode ∈ [0x84, 0xA4] then 4
  else if isAbsolute opcode then 2
  else if opcode ∈ [0x02, 0x12, 0x10, 0x20, 0x30, 0x22, 0x32, 0x40, 0x50, 0x60, 0x70, 0x80, 0x43,
        0x53, 0x63, 0x72, 0x73, 0x75, 0x82, 0x83, 0x90, 0x92, 0x93, 0xA0, 0xA3, 0xB0, 0xC0, 0xD0,
        0xD5, 0xE0, 0xE2, 0xE3, 0xF0, 0xF2, 0xF3]
      ∨ 0x85 ≤ opcode ∧ opcode ≤ 0x8F ∨ 0xA6 ≤ opcode ∧ opcode ≤ 0xAF
      ∨ 0xB4 ≤ opcode ∧ opcode ≤ 0xBF ∨ 0xD8 ≤ opcode ∧ opcode ≤ 0xDF then 2
  else 1

namespace Fetch

/-- Both start with the same `size` bytes, at the same address. -/
structure Agrees (f g : Fetch) (size : Nat) : Prop where
  address : f.address = g.address
  opcode : f.opcode = g.opcode
  arg1 : 2 ≤ size → f.arg1 = g.arg1
  arg2 : 3 ≤ size → f.arg2 = g.arg2

/-- The same entry of the opcode table, read at two places. -/
structure Alike (f g : Fetch) (i j : Instruction) : Prop where
  length : i.length = j.length
  cycles : i.cycles = j.cycles
  eq : f.Agrees g i.length → i = j

variable {f g : Fetch}

theorem row_lt (f : Fetch) : f.row < 16 := by
  have := f.opcode.toNat_lt
  unfold row
  omega

theorem column_lt (f : Fetch) : f.column < 16 := by
  unfold column
  omega

theorem row_congr (h : f.opcode = g.opcode) : g.row = f.row := by
  unfold row
  rw [h]

theorem column_congr (h : f.opcode = g.opcode) : g.column = f.column := by
  unfold column
  rw [h]

/-! ## The columns of the opcode table -/

theorem column0_alike (h : f.opcode = g.opcode) : f.Alike g f.column0 g.column0 := by
  have hr := f.row_lt
  unfold column0
  rw [row_congr h]
  generalize f.row = r at hr
  interval_cases r
  all_goals
    refine ⟨rfl, rfl, fun ⟨address, _, arg1, arg2⟩ => ?_⟩
    simp_all [Instruction.length, Reach.size, near, far, after, long]

theorem column1_alike (h : f.opcode = g.opcode) : f.Alike g f.column1 g.column1 := by
  have hr := f.row_lt
  unfold column1
  rw [row_congr h]
  generalize f.row = r at hr
  interval_cases r
  all_goals
    refine ⟨rfl, rfl, fun ⟨address, _, arg1, arg2⟩ => ?_⟩
    simp_all [Instruction.length, Reach.size, after, inPage]

theorem column2_alike (h : f.opcode = g.opcode) : f.Alike g f.column2 g.column2 := by
  have hr := f.row_lt
  unfold column2
  rw [row_congr h]
  generalize f.row = r at hr
  interval_cases r
  all_goals
    refine ⟨rfl, rfl, fun ⟨address, _, arg1, arg2⟩ => ?_⟩
    simp_all [Instruction.length, Reach.size, Operand.size, long]

theorem column3_alike (h : f.opcode = g.opcode) : f.Alike g f.column3 g.column3 := by
  have hr := f.row_lt
  unfold column3
  rw [row_congr h]
  generalize f.row = r at hr
  interval_cases r
  all_goals
    refine ⟨rfl, rfl, fun ⟨address, _, arg1, arg2⟩ => ?_⟩
    simp_all [Instruction.length, Operand.size]

theorem column4_alike (h : f.opcode = g.opcode) : f.Alike g f.column4 g.column4 := by
  have hr := f.row_lt
  unfold column4
  rw [row_congr h]
  generalize f.row = r at hr
  interval_cases r
  all_goals
    refine ⟨rfl, rfl, fun ⟨address, _, arg1, arg2⟩ => ?_⟩
    simp_all [Instruction.length, Operand.size, far, after, accumulatorOp?]

theorem columnDirect_alike (h : f.opcode = g.opcode) : f.Alike g f.columnDirect g.columnDirect := by
  have hr := f.row_lt
  unfold columnDirect
  rw [row_congr h]
  generalize f.row = r at hr
  interval_cases r
  all_goals
    refine ⟨rfl, rfl, fun ⟨address, _, arg1, arg2⟩ => ?_⟩
    simp_all [Instruction.length, Operand.size, far, after, uniform?, accumulatorOp?]

theorem columnIndirect_alike (h : f.opcode = g.opcode) (p : Fin 2) :
    f.Alike g (f.columnIndirect p) (g.columnIndirect p) := by
  have hr := f.row_lt
  unfold columnIndirect
  rw [row_congr h]
  generalize f.row = r at hr
  interval_cases r
  all_goals
    refine ⟨rfl, rfl, fun ⟨address, _, arg1, arg2⟩ => ?_⟩
    simp_all [Instruction.length, Operand.size, far, after, uniform?, accumulatorOp?]

theorem columnRegister_alike (h : f.opcode = g.opcode) (n : Fin 8) :
    f.Alike g (f.columnRegister n) (g.columnRegister n) := by
  have hr := f.row_lt
  unfold columnRegister
  rw [row_congr h]
  generalize f.row = r at hr
  interval_cases r
  all_goals
    refine ⟨rfl, rfl, fun ⟨address, _, arg1, arg2⟩ => ?_⟩
    simp_all [Instruction.length, Operand.size, near, far, after, uniform?, accumulatorOp?]

theorem decode_alike (h : f.opcode = g.opcode) : f.Alike g f.decode g.decode := by
  have hc := f.column_lt
  unfold decode
  rw [column_congr h]
  generalize f.column = c at hc
  interval_cases c
  · exact column0_alike h
  · exact column1_alike h
  · exact column2_alike h
  · exact column3_alike h
  · exact column4_alike h
  · exact columnDirect_alike h
  · exact columnIndirect_alike h 0
  · exact columnIndirect_alike h 1
  · exact columnRegister_alike h 0
  · exact columnRegister_alike h 1
  · exact columnRegister_alike h 2
  · exact columnRegister_alike h 3
  · exact columnRegister_alike h 4
  · exact columnRegister_alike h 5
  · exact columnRegister_alike h 6
  · exact columnRegister_alike h 7

/-! ## The tables of the opcodes -/

theorem tables_lt : ∀ n, n < 256 →
    (Fetch.length ⟨0, UInt8.ofNat n, 0, 0⟩ = opcodeLength (UInt8.ofNat n) ∧
      (decode ⟨0, UInt8.ofNat n, 0, 0⟩).cycles = opcodeCycles (UInt8.ofNat n)) := by
  decide +kernel

theorem tables (opcode : Byte) : Fetch.length ⟨0, opcode, 0, 0⟩ = opcodeLength opcode ∧
    (decode ⟨0, opcode, 0, 0⟩).cycles = opcodeCycles opcode :=
  Byte.forall_of_lt (p := fun opcode => Fetch.length ⟨0, opcode, 0, 0⟩ = opcodeLength opcode ∧
    (decode ⟨0, opcode, 0, 0⟩).cycles = opcodeCycles opcode) tables_lt opcode

/-- The opcode settles how long an instruction is. -/
theorem length_eq (f : Fetch) : f.length = opcodeLength f.opcode :=
  (decode_alike (f := f) (g := ⟨0, f.opcode, 0, 0⟩) rfl).length.trans (tables f.opcode).1

/-- It also settles how many machine cycles it takes. -/
theorem cycles_eq (f : Fetch) : f.decode.cycles = opcodeCycles f.opcode :=
  (decode_alike (f := f) (g := ⟨0, f.opcode, 0, 0⟩) rfl).cycles.trans (tables f.opcode).2

/-- An instruction is decoded from its own bytes. -/
theorem decode_congr (h : f.Agrees g f.length) : f.decode = g.decode :=
  (decode_alike h.opcode).eq h

end Fetch

end Trainer51
