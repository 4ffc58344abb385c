import Trainer51.Machine

/-!
# The keys of the trainer

Two keyboards.  The keys of the sequential one share a line and are told apart by the display
column that is selected while they are down; each key of the matrix has a bit of its own.
-/

namespace Trainer51

/-- The sequential keyboard, in the order of its columns. -/
inductive SequentialKey where
  | enter | esc | right | up | down | left
  deriving DecidableEq, Repr

namespace SequentialKey

def all : List SequentialKey := [enter, esc, right, up, down, left]

/-- The bit of the column select register that scans the key. -/
def column : SequentialKey → Nat
  | enter => 0
  | esc => 1
  | right => 2
  | up => 3
  | down => 4
  | left => 5

def name : SequentialKey → String
  | enter => "Enter"
  | esc => "Esc"
  | right => "Right"
  | up => "Up"
  | down => "Down"
  | left => "Left"

def label : SequentialKey → String
  | enter => "ENT"
  | esc => "ESC"
  | right => "→"
  | up => "↑"
  | down => "↓"
  | left => "←"

end SequentialKey

/-- The matrix keyboard. -/
inductive MatrixKey where
  | digit (d : Byte)
  | left | right | up | down | esc | enter
  deriving DecidableEq, Repr

namespace MatrixKey

/-- The sixteen keys that exist. -/
def all : List MatrixKey :=
  [digit 0, digit 1, digit 2, digit 3, digit 4, digit 5, digit 6, digit 7, digit 8, digit 9,
    left, right, up, down, esc, enter]

/-- The low bank has the digits 0 to 7, the high bank the others. -/
def bit : MatrixKey → InputBit
  | digit d => if d < 8 then ⟨.cskb0, d.toNat⟩ else ⟨.cskb1, (d.toNat - 8) % 2⟩
  | left => ⟨.cskb1, 2⟩
  | right => ⟨.cskb1, 3⟩
  | up => ⟨.cskb1, 4⟩
  | down => ⟨.cskb1, 5⟩
  | esc => ⟨.cskb1, 6⟩
  | enter => ⟨.cskb1, 7⟩

/-- The key that has a bit. -/
def ofBit? (b : InputBit) : Option MatrixKey := all.find? (·.bit == b)

def label : MatrixKey → String
  | digit d => toString d.toNat
  | left => "←"
  | right => "→"
  | up => "↑"
  | down => "↓"
  | esc => "ESC"
  | enter => "ENT"

end MatrixKey

inductive Key where
  | sequential (key : SequentialKey)
  | matrix (key : MatrixKey)
  deriving DecidableEq, Repr

namespace Key

/-- The line that every sequential key drives. -/
def sequentialLine : InputBit := ⟨.port3, 5⟩

/-- The input bit that the key drives. -/
def bit : Key → InputBit
  | sequential _ => sequentialLine
  | matrix key => key.bit

def text : Key → String
  | sequential key => "seq " ++ key.name
  | matrix key => "matrix " ++ key.label

/-- What is written on the key. -/
def label : Key → String
  | sequential key => key.label
  | matrix key => key.label

/-- Position of the key in the order of keys: the sequential ones, the digits, the others. -/
def rank : Key → Nat
  | sequential key => key.column
  | matrix (.digit d) => 6 + d.toNat
  | matrix .left => 262
  | matrix .right => 263
  | matrix .up => 264
  | matrix .down => 265
  | matrix .esc => 266
  | matrix .enter => 267

/-- Put a key in its place among keys of ascending rank, unless it is there. -/
def insertInOrder (key : Key) : List Key → List Key
  | [] => [key]
  | k :: ks =>
    if key.rank < k.rank then key :: k :: ks
    else if key.rank = k.rank then k :: ks
    else k :: insertInOrder key ks

/-- Keys in ascending order, each once. -/
def Ascending (keys : List Key) : Prop := keys.Pairwise fun k l => k.rank < l.rank

end Key

/-! ## Lemmas -/

namespace Key

theorem rank_sequential_lt (k : SequentialKey) : (sequential k).rank < 6 := by
  cases k <;> decide

theorem le_rank_matrix (k : MatrixKey) : 6 ≤ (matrix k).rank := by
  cases k with
  | digit d => exact Nat.le_add_right 6 d.toNat
  | _ => decide

theorem rank_digit_lt (d : Byte) : (matrix (.digit d)).rank < 262 := by
  have := d.toNat_lt
  show 6 + d.toNat < 262
  omega

/-- No two keys have the same place in the order. -/
theorem rank_injective {k l : Key} (h : k.rank = l.rank) : k = l := by
  cases k with
  | sequential k =>
    cases l with
    | sequential l =>
      cases k <;> cases l <;> first | rfl | cases h
    | matrix l =>
      have := rank_sequential_lt k
      have := le_rank_matrix l
      omega
  | matrix k =>
    cases l with
    | sequential l =>
      have := rank_sequential_lt l
      have := le_rank_matrix k
      omega
    | matrix l =>
      cases k with
      | digit d =>
        cases l with
        | digit e =>
          have same : d.toNat = e.toNat := Nat.add_left_cancel h
          rw [UInt8.toNat_inj.1 same]
        | _ => exact absurd h (Nat.ne_of_lt (Nat.lt_of_lt_of_le (rank_digit_lt d) (by decide)))
      | _ =>
        cases l with
        | digit e =>
          exact absurd h (Nat.ne_of_gt (Nat.lt_of_lt_of_le (rank_digit_lt e) (by decide)))
        | _ => first | rfl | cases h

theorem mem_insertInOrder (key k : Key) (keys : List Key) :
    k ∈ key.insertInOrder keys ↔ k = key ∨ k ∈ keys := by
  induction keys with
  | nil => simp [insertInOrder]
  | cons l ls ih =>
    unfold insertInOrder
    split
    · exact List.mem_cons
    · split
      · next same =>
        obtain rfl := rank_injective same
        simp
      · rw [List.mem_cons, ih, List.mem_cons]
        exact or_left_comm

theorem ascending_insertInOrder {keys : List Key} (h : Ascending keys) (key : Key) :
    Ascending (key.insertInOrder keys) := by
  induction keys with
  | nil => exact List.pairwise_singleton _ _
  | cons k ks ih =>
    obtain ⟨first, rest⟩ := List.pairwise_cons.1 h
    unfold insertInOrder
    split
    · next lt =>
      refine List.pairwise_cons.2 ⟨fun l hl => ?_, h⟩
      obtain rfl | hl := List.mem_cons.1 hl
      · exact lt
      · exact Nat.lt_trans lt (first l hl)
    · next not_lt =>
      split
      · exact h
      · next ne =>
        refine List.pairwise_cons.2 ⟨fun l hl => ?_, ih rest⟩
        obtain rfl | hl := (mem_insertInOrder key l ks).1 hl
        · omega
        · exact first l hl

end Key

end Trainer51
