import Trainer51.Proofs.Chip.Flow
import Trainer51.Proofs.Text.Hexadecimal
import Trainer51.Instruction.Text

/-!
# What the listing says about the way on

The first word of an instruction's text tells how a program goes on behind it, and where the text
prints an address to go to, this is its last word.

    Course.ofMnemonic (firstWord i.text) = i.course                               (course_text)
    i.printed? = some w → readAddress? (lastWord i.text) = some w                 (read_printed)
    i.course leads from c to (c.target? i).getD next                              (leadsTo_target)
-/

namespace Trainer51

/-! ## Words -/

/-- The text before the first blank. -/
def firstWord (s : String) : String := String.ofList (s.toList.takeWhile (· != ' '))

/-- The text behind the last blank. -/
def lastWord (s : String) : String :=
  String.ofList (s.toList.reverse.takeWhile (· != ' ')).reverse

/-- The address that hexadecimal digits with an `h` behind them stand for. -/
def readAddress? (s : String) : Option Word :=
  match s.toList.reverse with
  | 'h' :: digits => (Hexadecimal.value? digits.reverse).map UInt16.ofNat
  | _ => none

theorem lastWord_append (s t : String) (ht : ' ' ∉ t.toList) : lastWord (s ++ " " ++ t) = t := by
  have whole : ∀ c ∈ t.toList.reverse, (c != ' ') = true := by
    intro c hc
    have blank : c ≠ ' ' := fun e => ht (e ▸ List.mem_reverse.1 hc)
    simpa using blank
  have stop : (s ++ " " ++ t).toList.reverse = t.toList.reverse ++ ' ' :: s.toList.reverse := by
    simp
  unfold lastWord
  rw [stop, List.takeWhile_append_of_pos whole]
  simp

theorem readAddress?_targetText (w : Word) : readAddress? (targetText w) = some w := by
  have digits : (targetText w).toList.reverse =
      'h' :: (Hexadecimal.plain w.toNat).toList.reverse := by
    simp [targetText, hexText]
  unfold readAddress?
  rw [digits]
  show (Hexadecimal.value? (Hexadecimal.plain w.toNat).toList.reverse.reverse).map _ = _
  rw [List.reverse_reverse, Hexadecimal.value?_plain, Nat.mod_eq_of_lt w.toNat_lt]
  simp

theorem blank_not_mem_targetText (w : Word) : ' ' ∉ (targetText w).toList := by
  intro h
  have h : ' ' ∈ (Hexadecimal.plain w.toNat).toList := by
    simpa [targetText, hexText] using h
  cases Hexadecimal.isSome_digit?_of_mem_plain h

/-- The address that a text ends with reads back. -/
theorem readAddress?_lastWord (s : String) (w : Word) :
    readAddress? (lastWord (s ++ " " ++ targetText w)) = some w := by
  rw [lastWord_append _ _ (blank_not_mem_targetText w), readAddress?_targetText]

theorem firstWord_dataText (b : Byte) : firstWord (dataText b) = "DB" := by
  simp [firstWord, dataText]

/-! ## Courses -/

/-- How a program goes on behind an instruction. -/
inductive Course where
  /-- At the address that the listing prints. -/
  | jump
  /-- At the address that the listing prints, or at the next instruction. -/
  | branch
  /-- At the address on the stack. -/
  | back
  /-- At the accumulator plus the data pointer. -/
  | indexed
  /-- At the next instruction. -/
  | next
  deriving DecidableEq, Repr

/-- The course that a mnemonic stands for. -/
def Course.ofMnemonic : String → Course
  | "AJMP" | "SJMP" | "LJMP" | "ACALL" | "LCALL" => jump
  | "JBC" | "JB" | "JNB" | "JC" | "JNC" | "JZ" | "JNZ" | "CJNE" | "DJNZ" => branch
  | "RET" | "RETI" => back
  | "JMP" => indexed
  | _ => next

namespace Instruction

def course : Instruction → Course
  | jump .. | call .. => .jump
  | jumpWhen .. | jumpIfBit .. | jumpClearBit .. | compareJump .. | decrementJump .. => .branch
  | ret | returnFromInterrupt => .back
  | jumpIndexed => .indexed
  | _ => .next

/-- The address that the listing prints for a jump. -/
def printed? : Instruction → Option Word
  | jump _ target | call _ target | jumpWhen _ target | jumpIfBit _ _ target
  | jumpClearBit _ target | compareJump _ _ target | decrementJump _ target => some target
  | _ => none

/-- The first word of an instruction's text tells its course. -/
theorem course_text (i : Instruction) : Course.ofMnemonic (firstWord i.text) = i.course := by
  cases i with
  | jump reach target =>
    show _ = Course.jump
    cases reach <;> simp [text, Reach.jumpText, firstWord, Course.ofMnemonic]
  | call reach target =>
    show _ = Course.jump
    cases reach <;> simp [text, Reach.callText, firstWord, Course.ofMnemonic]
  | jumpWhen condition target =>
    show _ = Course.branch
    cases condition <;> simp [text, Condition.text, firstWord, Course.ofMnemonic]
  | jumpIfBit set bit target =>
    show _ = Course.branch
    cases set <;> simp [text, firstWord, Course.ofMnemonic]
  | jumpClearBit | compareJump | decrementJump =>
    show _ = Course.branch
    simp [text, firstWord, Course.ofMnemonic]
  | ret | returnFromInterrupt =>
    show _ = Course.back
    simp [text, firstWord, Course.ofMnemonic]
  | jumpIndexed =>
    show _ = Course.indexed
    simp [text, firstWord, Course.ofMnemonic]
  | accumulate op source =>
    show _ = Course.next
    cases op with
    | logic op =>
      cases op <;> simp [text, AccumulatorOp.text, Logic.text, firstWord, Course.ofMnemonic]
    | _ => simp [text, AccumulatorOp.text, firstWord, Course.ofMnemonic]
  | combine op address source =>
    show _ = Course.next
    cases op <;> simp [text, Logic.text, firstWord, Course.ofMnemonic]
  | rotate rotation =>
    show _ = Course.next
    cases rotation <;> simp [text, Rotation.text, firstWord, Course.ofMnemonic]
  | _ =>
    show _ = Course.next
    simp [text, dataText, firstWord, Course.ofMnemonic]

/-- The text of a jump ends in the address that it prints. -/
theorem text_of_printed {i : Instruction} {w : Word} (h : i.printed? = some w) :
    ∃ s, i.text = s ++ " " ++ targetText w := by
  have comma (s : String) : s ++ ", " ++ targetText w = s ++ "," ++ " " ++ targetText w := by
    show s ++ ("," ++ " ") ++ targetText w = _
    rw [← String.append_assoc]
  cases i with
  | jump reach target =>
    cases h
    exact ⟨reach.jumpText, rfl⟩
  | call reach target =>
    cases h
    exact ⟨reach.callText, rfl⟩
  | jumpWhen condition target =>
    cases h
    exact ⟨condition.text, rfl⟩
  | jumpIfBit set bit target | jumpClearBit bit target | compareJump left right target
  | decrementJump operand target =>
    cases h
    exact ⟨_, comma _⟩
  | _ => cases h

theorem read_printed {i : Instruction} {w : Word} (h : i.printed? = some w) :
    readAddress? (lastWord i.text) = some w := by
  obtain ⟨s, text⟩ := text_of_printed h
  rw [text, readAddress?_lastWord]

end Instruction

/-! ## Where an instruction goes on -/

/-- Where a course may lead with the registers of `core`, when `printed?` is the printed address and
`next` that of the next instruction. -/
def Course.LeadsTo (core : Core) (printed? : Option Word) (next w : Word) : Course → Prop
  | .jump => printed? = some w
  | .branch => ∃ t, printed? = some t ∧ (w = t ∨ w = next)
  | .back => w = core.popWord.1
  | .indexed => w = core.dptr + core.a.toUInt16
  | .next => w = next

/-- A course leads on if the printed address is known from elsewhere. -/
theorem Course.LeadsTo.mono {core : Core} {p q : Option Word} {next w : Word} {course : Course}
    (h : course.LeadsTo core p next w) (hpq : ∀ t, p = some t → q = some t) :
    course.LeadsTo core q next w := by
  cases course with
  | jump => exact hpq w h
  | branch =>
    obtain ⟨t, ht, hw⟩ := h
    exact ⟨t, hpq t ht, hw⟩
  | back | indexed | next => exact h

/-- An instruction jumps where its course leads. -/
theorem Chip.leadsTo_target {X P : Type} [RegisterBus P] (c : Chip X P) (i : Instruction)
    (next : Word) : i.course.LeadsTo c.core i.printed? next ((c.target? i).getD next) := by
  have branch {p : Prop} [Decidable p] (t : Word) :
      ∃ u, some t = some u ∧ ((if p then some t else none).getD next = u ∨
        (if p then some t else none).getD next = next) := by
    refine ⟨t, rfl, ?_⟩
    split
    · exact .inl rfl
    · exact .inr rfl
  cases i with
  | jumpWhen | jumpIfBit | jumpClearBit | compareJump | decrementJump => exact branch _
  | _ => rfl

end Trainer51
