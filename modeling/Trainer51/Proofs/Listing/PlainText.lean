import Trainer51.Proofs.Instruction.Assembly
import Trainer51.Proofs.Text.Hexadecimal
import Trainer51.Screen

/-!
# Rows of plain text

What the listing prints of a row is made of characters that take one cell of the screen each, so
each of them has a column of its own.

    no mnemonic and no operand has another character    (Mnemonic.plainText_all, Token.plainText)
    nor has the line that is made of them                                        (Phrase.plainText)
    nor has the text of a row of a listing                                   (Row.Listed.plainText)
-/

namespace Trainer51

/-- Every character of a text takes one cell. -/
def PlainText (s : String) : Prop := ∀ c ∈ s.toList, Plain c

instance (s : String) : Decidable (PlainText s) := List.decidableBAll Plain s.toList

theorem PlainText.append {s t : String} (hs : PlainText s) (ht : PlainText t) :
    PlainText (s ++ t) := by
  intro c hc
  rw [String.toList_append, List.mem_append] at hc
  exact hc.elim (hs c) (ht c)

/-! ## Numbers -/

theorem plain_of_digit? {c : Char} (h : (Record.digit? c).isSome) : Plain c :=
  Hexadecimal.forall_digit (by decide +kernel) h

theorem plain_digit (n : Nat) : Plain (Hexadecimal.digit n) :=
  plain_of_digit? (by rw [Hexadecimal.digit?_digit]; rfl)

theorem plainText_number (n : Nat) : PlainText (toString n) := by
  intro c hc
  have digit : c.isDigit := by
    refine Nat.isDigit_of_mem_toDigits (b := 10) (n := n) (by decide) (by decide) ?_
    simpa using hc
  simp only [Char.isDigit, Bool.and_eq_true, decide_eq_true_eq] at digit
  have low : 0x30 ≤ c.toNat := digit.1
  have high : c.toNat ≤ 0x39 := digit.2
  exact .inl (by omega)

theorem plainText_targetText (w : Word) : PlainText (targetText w) := by
  have suffix : PlainText "h" := by decide
  exact PlainText.append (fun c hc => plain_of_digit? (Hexadecimal.isSome_digit?_of_mem_plain hc))
    suffix

/-! ## Lines -/

theorem Token.plainText (t : Token) : PlainText t.text := by
  cases t with
  | indirect pointer => exact PlainText.append (by decide) (plainText_number _)
  | register name => exact PlainText.append (by decide) (plainText_number _)
  | number value => exact PlainText.append (by decide) (plainText_number _)
  | address value => exact plainText_targetText value
  | complement bit => exact PlainText.append (by decide) (plainText_targetText bit)
  | _ => decide

theorem Mnemonic.plainText_all : ∀ m ∈ all, PlainText m.text := by
  decide +kernel

theorem plainText_foldl {line : String} (h : PlainText line) {ws : List String}
    (hws : ∀ w ∈ ws, PlainText w) :
    PlainText (ws.foldl (fun line w => line ++ ", " ++ w) line) := by
  induction ws generalizing line with
  | nil => exact h
  | cons w ws ih =>
    obtain ⟨hw, hws⟩ := List.forall_mem_cons.1 hws
    exact ih ((h.append (by decide)).append hw) hws

theorem plainText_lineOf {first : String} (h : PlainText first) {ws : List String}
    (hws : ∀ w ∈ ws, PlainText w) : PlainText (lineOf first ws) := by
  cases ws with
  | nil => exact h
  | cons w ws =>
    obtain ⟨hw, hws⟩ := List.forall_mem_cons.1 hws
    exact plainText_foldl ((h.append (by decide)).append hw) hws

theorem Phrase.plainText (p : Phrase) : PlainText p.text :=
  plainText_lineOf (Mnemonic.plainText_all _ p.mnemonic.mem_all)
    (List.forall_mem_map.2 fun t _ => t.plainText)

/-- The text of a row is that of an instruction or of a byte of data. -/
theorem Row.Listed.plainText {row : Row} (h : row.Listed) : PlainText row.text := by
  cases h with
  | instruction address bytes length =>
    show PlainText (Fetch.ofBytes address bytes).decode.text
    rw [← Instruction.text_phrase]
    exact Phrase.plainText _
  | data address b => exact PlainText.append (by decide) (plainText_targetText b.toUInt16)

end Trainer51
