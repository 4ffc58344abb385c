import Trainer51.Proofs.Instruction.OwnBytes

/-!
# What the opcode table has

One entry of the table is empty.  All the others have a meaning, and where one combines a byte into
a direct address it has that byte at hand, in the accumulator or behind the address.  Both are read
off the table column by column.

    f.opcode ≠ 0xA5 → f.decode.Regular                                          (regular_decode)
    f.decode = .reserved ↔ f.opcode = 0xA5                                (decode_eq_reserved_iff)
-/

namespace Trainer51

/-- A byte that is combined into a direct address is not read at another one. -/
def Instruction.combinesAtHand : Instruction → Bool
  | .combine _ _ source => !source.isDirect
  | _ => true

/-- What a filled entry of the table has. -/
structure Instruction.Regular (i : Instruction) : Prop where
  meaning : i ≠ .reserved
  atHand : i.combinesAtHand = true

namespace Fetch

variable (f : Fetch)

/-! ## The columns of the opcode table -/

theorem regular_column0 : f.column0.Regular := by
  unfold column0
  split <;> exact ⟨nofun, rfl⟩

theorem regular_column1 : f.column1.Regular := by
  unfold column1
  dsimp only
  split <;> exact ⟨nofun, rfl⟩

theorem regular_column2 : f.column2.Regular := by
  unfold column2
  split <;> exact ⟨nofun, rfl⟩

theorem regular_column3 : f.column3.Regular := by
  unfold column3
  split <;> exact ⟨nofun, rfl⟩

theorem regular_column4 : f.column4.Regular := by
  have hr := f.row_lt
  unfold column4
  generalize f.row = r at hr
  interval_cases r <;> exact ⟨nofun, rfl⟩

theorem regular_columnDirect (filled : f.row ≠ 0xA) : f.columnDirect.Regular := by
  have hr := f.row_lt
  unfold columnDirect
  generalize f.row = r at hr filled
  interval_cases r
  case «10» => exact absurd rfl filled
  all_goals exact ⟨nofun, rfl⟩

theorem regular_columnIndirect (p : Fin 2) : (f.columnIndirect p).Regular := by
  have hr := f.row_lt
  unfold columnIndirect
  generalize f.row = r at hr
  interval_cases r <;> exact ⟨nofun, rfl⟩

theorem regular_columnRegister (n : Fin 8) : (f.columnRegister n).Regular := by
  have hr := f.row_lt
  unfold columnRegister
  generalize f.row = r at hr
  interval_cases r <;> exact ⟨nofun, rfl⟩

/-! ## The table -/

/-- The empty entry is in the column of direct addresses. -/
theorem opcode_eq_reserved_iff : f.opcode = 0xA5 ↔ f.column = 5 ∧ f.row = 0xA := by
  rw [← UInt8.toNat_inj]
  show f.opcode.toNat = 0xA5 ↔ f.opcode.toNat % 16 = 5 ∧ f.opcode.toNat / 16 = 0xA
  omega

theorem regular_decode (filled : f.opcode ≠ 0xA5) : f.decode.Regular := by
  have hc := f.column_lt
  have empty : f.column = 5 → f.row ≠ 0xA := fun column row =>
    filled (f.opcode_eq_reserved_iff.2 ⟨column, row⟩)
  unfold decode
  generalize f.column = c at hc empty
  interval_cases c
  · exact f.regular_column0
  · exact f.regular_column1
  · exact f.regular_column2
  · exact f.regular_column3
  · exact f.regular_column4
  · exact f.regular_columnDirect (empty rfl)
  · exact f.regular_columnIndirect 0
  · exact f.regular_columnIndirect 1
  all_goals exact f.regular_columnRegister _

/-- One opcode has no meaning. -/
theorem decode_eq_reserved_iff : f.decode = .reserved ↔ f.opcode = 0xA5 := by
  constructor
  · intro reserved
    by_cases empty : f.opcode = 0xA5
    · exact empty
    · exact absurd reserved (f.regular_decode empty).meaning
  · intro empty
    obtain ⟨column, row⟩ := f.opcode_eq_reserved_iff.1 empty
    simp only [decode, column, columnDirect, row]

end Fetch

end Trainer51
