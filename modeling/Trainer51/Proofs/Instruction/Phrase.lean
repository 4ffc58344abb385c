import Trainer51.Proofs.Instruction.Course

/-!
# The words of a line

A line of the listing is a mnemonic and what it is applied to, with blanks and commas in between.
None of its words has a blank or a comma of its own, and no two mnemonics or operands are printed
alike, so a line tells what it was printed from.

    wordsOf (lineOf first ws) = first :: ws                                    (wordsOf_lineOf)
    Token.read? t.text = some t                                               (Token.read?_text)
    Phrase.read? p.text = some p                                             (Phrase.read?_text)
-/

namespace Trainer51

/-! ## Words -/

/-- Neither a blank nor a comma is in a word. -/
def IsWord (s : String) : Prop := ∀ c ∈ s.toList, c ≠ ' ' ∧ c ≠ ','

instance (s : String) : Decidable (IsWord s) :=
  List.decidableBAll (fun c => c ≠ ' ' ∧ c ≠ ',') s.toList

/-- The words of a line; commas do not count. -/
def wordsOf (s : String) : List String :=
  ((s.toList.filter (· != ',')).splitOn ' ').map String.ofList

theorem IsWord.append {s t : String} (hs : IsWord s) (ht : IsWord t) : IsWord (s ++ t) := by
  intro c hc
  rw [String.toList_append, List.mem_append] at hc
  exact hc.elim (hs c) (ht c)

theorem IsWord.filter {s : String} (h : IsWord s) : s.toList.filter (· != ',') = s.toList :=
  List.filter_eq_self.2 fun c hc => bne_iff_ne.2 (h c hc).2

/-- Addresses are printed with digits and a final `h` only. -/
theorem ne_of_mem_targetText {w : Word} {c d : Char} (hc : c ∈ (targetText w).toList)
    (digit : Record.digit? d = none) (suffix : d ≠ 'h') : c ≠ d := by
  rintro rfl
  rw [targetText, hexText, String.toList_append, List.mem_append] at hc
  obtain number | final := hc
  · have := Hexadecimal.isSome_digit?_of_mem_plain number
    rw [digit] at this
    cases this
  · exact suffix (List.mem_singleton.1 final)

theorem isWord_targetText (w : Word) : IsWord (targetText w) := fun _ hc =>
  ⟨ne_of_mem_targetText hc rfl (by decide), ne_of_mem_targetText hc rfl (by decide)⟩

theorem isWord_number (n : Nat) : IsWord (toString n) := by
  intro c hc
  have digit : c.isDigit := by
    refine Nat.isDigit_of_mem_toDigits (b := 10) (n := n) (by decide) (by decide) ?_
    simpa using hc
  constructor
  · rintro rfl
    cases digit
  · rintro rfl
    cases digit

/-- A line that begins with a word and goes on with others. -/
def lineOf (first : String) : List String → String
  | [] => first
  | w :: ws => ws.foldl (fun line w => line ++ ", " ++ w) (first ++ " " ++ w)

theorem filter_foldl (line : String) {ws : List String} (h : ∀ w ∈ ws, IsWord w) :
    (ws.foldl (fun line w => line ++ ", " ++ w) line).toList.filter (· != ',') =
      line.toList.filter (· != ',') ++ ws.flatMap (fun w => ' ' :: w.toList) := by
  induction ws generalizing line with
  | nil => simp
  | cons w ws ih =>
    obtain ⟨word, words⟩ := List.forall_mem_cons.1 h
    have joined : (line ++ ", " ++ w).toList.filter (· != ',') =
        line.toList.filter (· != ',') ++ ' ' :: w.toList := by
      simp [word.filter]
    rw [List.foldl_cons, ih _ words, joined, List.flatMap_cons, List.append_assoc]

/-- Without its commas a line is its words with a blank before each but the first. -/
theorem filter_lineOf {first : String} {ws : List String} (hf : IsWord first)
    (h : ∀ w ∈ ws, IsWord w) : (lineOf first ws).toList.filter (· != ',') =
      first.toList ++ ws.flatMap (fun w => ' ' :: w.toList) := by
  cases ws with
  | nil => simp [lineOf, hf.filter]
  | cons w ws =>
    obtain ⟨word, words⟩ := List.forall_mem_cons.1 h
    have begun : (first ++ " " ++ w).toList.filter (· != ',') =
        first.toList ++ ' ' :: w.toList := by
      simp [hf.filter, word.filter]
    rw [lineOf, filter_foldl _ words, begun, List.flatMap_cons, List.append_assoc]

theorem intercalate_blank (first : List Char) (ws : List (List Char)) :
    [' '].intercalate (first :: ws) = first ++ ws.flatMap (' ' :: ·) := by
  induction ws generalizing first with
  | nil => simp
  | cons w ws ih =>
    rw [List.intercalate_cons_cons, ih, List.flatMap_cons, List.append_assoc]
    rfl

theorem wordsOf_lineOf {first : String} {ws : List String} (hf : IsWord first)
    (h : ∀ w ∈ ws, IsWord w) : wordsOf (lineOf first ws) = first :: ws := by
  have line : (lineOf first ws).toList.filter (· != ',') =
      [' '].intercalate ((first :: ws).map String.toList) := by
    rw [filter_lineOf hf h, List.map_cons, intercalate_blank, List.flatMap_map]
  have noBlank : ∀ cs ∈ (first :: ws).map String.toList, ' ' ∉ cs := by
    intro cs hcs
    obtain ⟨w, hw, rfl⟩ := List.mem_map.1 hcs
    exact fun blank => (List.forall_mem_cons.2 ⟨hf, h⟩ w hw ' ' blank).1 rfl
  unfold wordsOf
  rw [line, List.splitOn_intercalate _ noBlank (by simp), List.map_map]
  simp

/-! ## Tokens -/

/-- What stands behind a mnemonic. -/
inductive Token where
  | accumulator
  /-- The accumulator together with the register B. -/
  | pair
  | carry
  | dptr
  /-- The external cell that the data pointer points at. -/
  | atDptr
  /-- The address in code memory that the accumulator and the data pointer add up to. -/
  | tableDptr
  /-- The address in code memory that the accumulator and the program counter add up to. -/
  | tablePc
  | indirect (pointer : Fin 2)
  | register (number : Fin 8)
  | number (value : Word)
  | address (value : Word)
  /-- The complement of an addressable bit. -/
  | complement (bit : Word)
  deriving DecidableEq, Repr

namespace Token

def text : Token → String
  | accumulator => "A"
  | pair => "AB"
  | carry => "C"
  | dptr => "DPTR"
  | atDptr => "@DPTR"
  | tableDptr => "@A+DPTR"
  | tablePc => "@A+PC"
  | indirect pointer => "@R" ++ toString pointer.val
  | register name => "R" ++ toString name.val
  | number value => "#" ++ toString value.toNat
  | address value => targetText value
  | complement bit => "/" ++ targetText bit

/-- The tokens that name no number. -/
def fixed : List Token :=
  [accumulator, pair, carry, dptr, atDptr, tableDptr, tablePc] ++
    (List.finRange 2).map indirect ++ (List.finRange 8).map register

/-- The token that is printed so. -/
def read? (s : String) : Option Token :=
  match s.toList with
  | '#' :: digits => some (.number (UInt16.ofNat (Nat.ofDigitChars 10 digits 0)))
  | '/' :: rest => (readAddress? (String.ofList rest)).map .complement
  | _ => (readAddress? s).map .address <|> fixed.find? (·.text == s)

theorem read?_fixed : ∀ t ∈ fixed, read? t.text = some t := by
  decide +kernel

theorem mem_fixed_indirect : ∀ pointer, indirect pointer ∈ fixed := by
  decide

theorem mem_fixed_register : ∀ name, register name ∈ fixed := by
  decide

/-- An address begins with a digit. -/
theorem read?_targetText (w : Word) : read? (targetText w) = some (.address w) := by
  have first {c : Char} {cs : List Char} (h : (targetText w).toList = c :: cs) :
      c ≠ '#' ∧ c ≠ '/' := by
    have hc : c ∈ (targetText w).toList := h ▸ List.mem_cons_self
    exact ⟨ne_of_mem_targetText hc rfl (by decide), ne_of_mem_targetText hc rfl (by decide)⟩
  unfold read?
  split
  · next h => exact absurd rfl (first h).1
  · next h => exact absurd rfl (first h).2
  · rw [readAddress?_targetText]
    rfl

theorem read?_text (t : Token) : read? t.text = some t := by
  cases t with
  | indirect pointer => exact read?_fixed _ (mem_fixed_indirect pointer)
  | register name => exact read?_fixed _ (mem_fixed_register name)
  | number value =>
    have chars : (number value).text.toList = '#' :: Nat.toDigits 10 value.toNat := by
      simp [text, Nat.repr]
    unfold read?
    rw [chars]
    simp [Nat.ofDigitChars_ten_toDigits]
  | address value => exact read?_targetText value
  | complement bit =>
    have chars : (complement bit).text.toList = '/' :: (targetText bit).toList := by
      simp [text]
    unfold read?
    rw [chars]
    simp [readAddress?_targetText]
  | _ => exact read?_fixed _ (by decide)

theorem isWord_text (t : Token) : IsWord t.text := by
  cases t with
  | indirect pointer => exact IsWord.append (by decide) (isWord_number _)
  | register name => exact IsWord.append (by decide) (isWord_number _)
  | number value => exact IsWord.append (by decide) (isWord_number _)
  | address value => exact isWord_targetText value
  | complement bit => exact IsWord.append (by decide) (isWord_targetText bit)
  | _ => decide

end Token

/-! ## Mnemonics -/

/-- The first word of a line.  Some stand for instructions of several kinds. -/
inductive Mnemonic where
  | nop
  | jump (reach : Reach)
  | acall
  | lcall
  | ret
  | reti
  | jmp
  | branch (condition : Condition)
  | bitBranch (set : Bool)
  | jbc
  | cjne
  | djnz
  | operate (op : AccumulatorOp)
  | inc
  | dec
  | mul
  | div
  | da
  | swap
  | clr
  | cpl
  | setb
  | rotate (rotation : Rotation)
  | mov
  | movc
  | movx
  | push
  | pop
  | xch
  | xchd
  /-- A byte of data. -/
  | db
  deriving DecidableEq, Repr

namespace Mnemonic

def text : Mnemonic → String
  | nop => "NOP"
  | jump reach => reach.jumpText
  | acall => "ACALL"
  | lcall => "LCALL"
  | ret => "RET"
  | reti => "RETI"
  | jmp => "JMP"
  | branch condition => condition.text
  | bitBranch set => if set then "JB" else "JNB"
  | jbc => "JBC"
  | cjne => "CJNE"
  | djnz => "DJNZ"
  | operate op => op.text
  | inc => "INC"
  | dec => "DEC"
  | mul => "MUL"
  | div => "DIV"
  | da => "DA"
  | swap => "SWAP"
  | clr => "CLR"
  | cpl => "CPL"
  | setb => "SETB"
  | rotate rotation => rotation.text
  | mov => "MOV"
  | movc => "MOVC"
  | movx => "MOVX"
  | push => "PUSH"
  | pop => "POP"
  | xch => "XCH"
  | xchd => "XCHD"
  | db => "DB"

def all : List Mnemonic :=
  [nop, jump .short, jump .page, jump .long, acall, lcall, ret, reti, jmp, branch .carry,
    branch .noCarry, branch .zero, branch .notZero, bitBranch true, bitBranch false, jbc, cjne,
    djnz, operate .add, operate .addWithCarry, operate .subtractWithBorrow, operate (.logic .or),
    operate (.logic .and), operate (.logic .xor), inc, dec, mul, div, da, swap, clr, cpl, setb,
    rotate .left, rotate .leftThroughCarry, rotate .right, rotate .rightThroughCarry, mov, movc,
    movx, push, pop, xch, xchd, db]

theorem mem_all (m : Mnemonic) : m ∈ all := by
  cases m with
  | jump reach => cases reach <;> decide
  | branch condition => cases condition <;> decide
  | bitBranch set => cases set <;> decide
  | operate op =>
    cases op with
    | logic op => cases op <;> decide
    | _ => decide
  | rotate rotation => cases rotation <;> decide
  | _ => decide

/-- The mnemonic that is printed so. -/
def read? (s : String) : Option Mnemonic := all.find? (·.text == s)

theorem read?_all : ∀ m ∈ all, read? m.text = some m ∧ IsWord m.text := by
  decide +kernel

end Mnemonic

/-! ## Phrases -/

/-- A line of the listing: a mnemonic and what it is applied to. -/
structure Phrase where
  mnemonic : Mnemonic
  tokens : List Token
  deriving DecidableEq, Repr

namespace Phrase

def text (p : Phrase) : String := lineOf p.mnemonic.text (p.tokens.map Token.text)

/-- The phrase that is printed so. -/
def read? (s : String) : Option Phrase :=
  match wordsOf s with
  | [] => none
  | mnemonic :: operands => do
    let mnemonic ← Mnemonic.read? mnemonic
    let tokens ← operands.mapM Token.read?
    return ⟨mnemonic, tokens⟩

theorem mapM_read? (ts : List Token) : (ts.map Token.text).mapM Token.read? = some ts := by
  induction ts with
  | nil => rfl
  | cons t ts ih => simp [Token.read?_text, ih]

theorem read?_text (p : Phrase) : read? p.text = some p := by
  obtain ⟨mnemonic, word⟩ := Mnemonic.read?_all _ p.mnemonic.mem_all
  have words : wordsOf p.text = p.mnemonic.text :: p.tokens.map Token.text :=
    wordsOf_lineOf word (List.forall_mem_map.2 fun t _ => t.isWord_text)
  unfold read?
  rw [words]
  simp only [mnemonic, mapM_read?, Option.pure_def, Option.bind_eq_bind, Option.bind_some]

end Phrase

end Trainer51
