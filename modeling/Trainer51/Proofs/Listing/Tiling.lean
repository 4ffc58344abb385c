import Trainer51.Listing.Sweep

/-!
# The rows of a listing tile the image

Every byte of an image stands in one row of its listing, at the address the image gives it, and the
rows come in the order of their addresses.

    (foldr Run.cons [] entries).flatMap Run.placed = entries          (runs_placed)
    run.rows.flatMap Row.placed = run.placed                          (Run.rows_placed)
    image.rows.flatMap Row.placed = image.toList                      (Image.rows_placed)

A row is either an instruction with all its bytes or a single byte of data (`Row.Listed`).
-/

namespace Trainer51

/-- The bytes from address `a` on, each with its address. -/
def placeFrom (a : Word) : List Byte → List (Word × Byte)
  | [] => []
  | b :: bytes => (a, b) :: placeFrom (a + 1) bytes

/-- The bytes of a row, each with its address. -/
def Row.placed (row : Row) : List (Word × Byte) := placeFrom row.address row.bytes

/-- The bytes of a run, each with its address. -/
def Run.placed (run : Run) : List (Word × Byte) := placeFrom run.start run.bytes

/-- A row as a listing has it: a whole instruction or one byte of data. -/
inductive Row.Listed : Row → Prop where
  | instruction (address : Word) (bytes : List Byte)
      (length : bytes.length = opcodeLength (bytes.headD 0)) :
      Listed (.ofInstruction address bytes)
  | data (address : Word) (b : Byte) : Listed (.ofData address b)

/-! ## Placed bytes -/

theorem Word.add_ofNat_succ (a : Word) (n : Nat) :
    a + UInt16.ofNat (n + 1) = a + UInt16.ofNat n + 1 := by
  rw [UInt16.ofNat_add, UInt16.add_assoc]
  rfl

theorem Word.succ_add_ofNat (a : Word) (n : Nat) :
    a + 1 + UInt16.ofNat n = a + UInt16.ofNat (n + 1) := by
  rw [add_ofNat_succ, UInt16.add_assoc, UInt16.add_assoc, UInt16.add_comm 1]

theorem placeFrom_append (a : Word) (xs ys : List Byte) :
    placeFrom a (xs ++ ys) = placeFrom a xs ++ placeFrom (a + UInt16.ofNat xs.length) ys := by
  induction xs generalizing a with
  | nil => simp [placeFrom]
  | cons x xs ih =>
    rw [List.length_cons, ← Word.succ_add_ofNat, List.cons_append]
    simp only [placeFrom, List.cons_append]
    rw [ih]

theorem mem_placeFrom (a c : Word) (b : Byte) (bytes : List Byte) :
    (c, b) ∈ placeFrom a bytes ↔ ∃ i, bytes[i]? = some b ∧ c = a + UInt16.ofNat i := by
  induction bytes generalizing a with
  | nil => simp [placeFrom]
  | cons x bytes ih =>
    simp only [placeFrom, List.mem_cons, Prod.mk.injEq, ih]
    constructor
    · rintro (⟨rfl, rfl⟩ | ⟨i, hi, rfl⟩)
      · exact ⟨0, by simp, by simp⟩
      · exact ⟨i + 1, by simpa using hi, Word.succ_add_ofNat a i⟩
    · rintro ⟨i, hi, rfl⟩
      cases i with
      | zero => left; simpa using hi.symm
      | succ i =>
        right
        exact ⟨i, by simpa using hi, (Word.succ_add_ofNat a i).symm⟩

/-! ## Runs -/

theorem Run.cons_placed (entry : Word × Byte) (runs : List Run) :
    (Image.Run.cons entry runs).flatMap placed = entry :: runs.flatMap placed := by
  cases runs with
  | nil => rfl
  | cons run runs =>
    unfold Image.Run.cons
    dsimp only
    split
    · next h =>
      have e : entry.1 + 1 = run.start := by
        have hs := run.start.toNat_lt
        apply UInt16.toNat_inj.1
        rw [UInt16.toNat_add, ← h]
        exact Nat.mod_eq_of_lt (h ▸ hs)
      simp [placed, placeFrom, e]
    · rfl

theorem runs_placed (entries : List (Word × Byte)) :
    (entries.foldr Image.Run.cons []).flatMap Run.placed = entries := by
  induction entries with
  | nil => rfl
  | cons entry entries ih => rw [List.foldr_cons, Run.cons_placed, ih]

/-! ## The sweep -/

namespace Sweep

/-- The bytes read so far. -/
def placed (s : Sweep) : List (Word × Byte) :=
  s.rows.reverse.flatMap Row.placed ++ placeFrom s.start s.pending

/-- The address of the next byte. -/
def front (s : Sweep) : Word := s.start + UInt16.ofNat s.pending.length

theorem front_next (s : Sweep) (b : Byte) : (s.next b).front = s.front + 1 := by
  unfold next front
  dsimp only
  split
  · simp [UInt16.add_assoc]
  · simp [UInt16.add_assoc]

/-- One more byte is read, at the front. -/
theorem placed_next (s : Sweep) (b : Byte) : (s.next b).placed = s.placed ++ [(s.front, b)] := by
  have h : placeFrom s.start (s.pending ++ [b]) = placeFrom s.start s.pending ++ [(s.front, b)] :=
    placeFrom_append _ _ _
  unfold next placed
  dsimp only
  split
  · simp [Row.ofInstruction, Row.placed, placeFrom, h]
  · simp [h]

theorem placed_foldl (bytes : List Byte) (s : Sweep) :
    (bytes.foldl next s).placed = s.placed ++ placeFrom s.front bytes := by
  induction bytes generalizing s with
  | nil => simp [placeFrom]
  | cons b bytes ih =>
    rw [List.foldl_cons, ih, placed_next, front_next]
    simp [placeFrom]

/-- What is pending is listed byte by byte. -/
theorem placed_pending (a : Word) (bytes : List Byte) (n : Nat) :
    ((bytes.zipIdx n).map fun (b, i) => Row.ofData (a + UInt16.ofNat i) b).flatMap Row.placed =
      placeFrom (a + UInt16.ofNat n) bytes := by
  induction bytes generalizing n with
  | nil => rfl
  | cons b bytes ih =>
    rw [List.zipIdx_cons, List.map_cons, List.flatMap_cons, ih, Word.add_ofNat_succ]
    rfl

theorem finish_placed (s : Sweep) : s.finish.flatMap Row.placed = s.placed := by
  unfold finish placed
  rw [List.flatMap_append, placed_pending]
  simp

theorem listed_next (s : Sweep) (b : Byte) (h : ∀ row ∈ s.rows, row.Listed) :
    ∀ row ∈ (s.next b).rows, row.Listed := by
  unfold next
  dsimp only
  split
  · next length =>
    intro row hrow
    rcases List.mem_cons.1 hrow with rfl | hrow
    · exact .instruction _ _ length
    · exact h row hrow
  · exact h

theorem listed_foldl (bytes : List Byte) (s : Sweep) (h : ∀ row ∈ s.rows, row.Listed) :
    ∀ row ∈ (bytes.foldl next s).rows, row.Listed := by
  induction bytes generalizing s with
  | nil => exact h
  | cons b bytes ih => exact ih _ (listed_next s b h)

theorem listed_finish (s : Sweep) (h : ∀ row ∈ s.rows, row.Listed) :
    ∀ row ∈ s.finish, row.Listed := by
  intro row hrow
  rcases List.mem_append.1 hrow with hrow | hrow
  · exact h row (List.mem_reverse.1 hrow)
  · obtain ⟨x, _, rfl⟩ := List.mem_map.1 hrow
    exact .data _ _

end Sweep

/-! ## The rows of an image -/

theorem Run.rows_placed (run : Run) : run.rows.flatMap Row.placed = run.placed := by
  unfold rows
  rw [Sweep.finish_placed, Sweep.placed_foldl]
  simp [Sweep.placed, Sweep.front, placeFrom, placed]

theorem Run.rows_listed (run : Run) : ∀ row ∈ run.rows, row.Listed :=
  Sweep.listed_finish _ (Sweep.listed_foldl _ _ (by simp))

theorem Image.rows_placed (image : Image) : image.rows.flatMap Row.placed = image.toList := by
  unfold rows
  rw [List.flatMap_assoc]
  simp only [Run.rows_placed]
  exact runs_placed image.toList

theorem Image.rows_listed (image : Image) : ∀ row ∈ image.rows, row.Listed := by
  intro row hrow
  obtain ⟨run, _, h⟩ := List.mem_flatMap.1 hrow
  exact run.rows_listed row h

/-- An instruction has at most two argument bytes. -/
theorem opcodeLength_bounds_lt : ∀ n, n < 256 →
    1 ≤ opcodeLength (UInt8.ofNat n) ∧ opcodeLength (UInt8.ofNat n) ≤ 3 := by
  decide +kernel

theorem opcodeLength_bounds (b : Byte) : 1 ≤ opcodeLength b ∧ opcodeLength b ≤ 3 :=
  Byte.forall_of_lt (p := fun b => 1 ≤ opcodeLength b ∧ opcodeLength b ≤ 3) opcodeLength_bounds_lt b

theorem Row.Listed.length_bounds {row : Row} (h : row.Listed) :
    1 ≤ row.bytes.length ∧ row.bytes.length ≤ 3 := by
  cases h with
  | instruction address bytes length =>
    have := opcodeLength_bounds (bytes.headD 0)
    rw [← length] at this
    exact this
  | data address b =>
    show 1 ≤ 1 ∧ 1 ≤ 3
    decide

/-- An image that holds a byte has a row. -/
theorem Image.rows_ne_nil {image : Image} (h : image.toList ≠ []) : image.rows ≠ [] := by
  intro hr
  have := image.rows_placed
  rw [hr] at this
  exact h this.symm

end Trainer51
