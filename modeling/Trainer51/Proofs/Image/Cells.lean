import Trainer51.Image.Record

/-!
# What an image holds

    (a, b) ∈ image.toList ↔ image.get? a = some b                          (Image.mem_toList)
    (write image a bytes).get? c = bytes[c - a]?, else image.get? c        (Image.get?_write)

An image that was accepted holds at least one byte.
-/

namespace Trainer51

/-! ## Stores -/

/-- Stores are equal if they read equal everywhere. -/
theorem Store64K.ext_read {α : Type} {m n : Store64K α} (h : ∀ a, read m a = read n a) : m = n := by
  refine Vector.ext fun i hi => ?_
  have e : (UInt16.ofNat i).toNat = i := UInt16.toNat_ofNat_of_lt' hi
  have cell := h (UInt16.ofNat i)
  simpa only [read, e] using cell

/-- Each cell is written at most once, so the values may wrap at the end of the store. -/
theorem Store64K.read_writeAll {α : Type} (m : Store64K α) (a c : Word) (vs : List α)
    (h : vs.length ≤ 0x10000) :
    read (writeAll m a vs) c = (vs[(c - a).toNat]?).getD (read m c) := by
  induction vs generalizing m a with
  | nil => rfl
  | cons v vs ih =>
    have hl : vs.length + 1 ≤ 0x10000 := h
    have step : writeAll m a (v :: vs) = writeAll (write m a v) (a + 1) vs := rfl
    rw [step, ih _ _ (by omega), read_write]
    have hc := c.toNat_lt
    have ha := a.toNat_lt
    by_cases e : a = c
    · subst e
      have h0 : (a - a).toNat = 0 := by simp
      have h1 : (a - (a + 1)).toNat = 0xFFFF := by
        simp only [UInt16.toNat_sub, UInt16.toNat_add]
        have : (1 : UInt16).toNat = 1 := rfl
        omega
      rw [h0, h1, List.getElem?_eq_none (by omega)]
      simp
    · have hn : (c - a).toNat = (c - (a + 1)).toNat + 1 := by
        have hne : a.toNat ≠ c.toNat := fun he => e (UInt16.toNat_inj.1 he)
        simp only [UInt16.toNat_sub, UInt16.toNat_add]
        have : (1 : UInt16).toNat = 1 := rfl
        omega
      rw [hn, List.getElem?_cons_succ, if_neg e]

namespace Image

/-! ## Cells -/

theorem get?_empty (a : Word) : empty.get? a = none := Store64K.read_replicate none a

/-- A written byte wins over what the image held. -/
theorem get?_write (image : Image) (a c : Word) (bytes : List Byte) (h : bytes.length ≤ 0x10000) :
    (image.write a bytes).get? c = (bytes[(c - a).toNat]? <|> image.get? c) := by
  unfold get? write
  rw [Store64K.read_writeAll _ _ _ _ (by simpa using h), List.getElem?_map]
  cases bytes[(c - a).toNat]? <;> rfl

/-- The image as program memory, zero where it says nothing. -/
def memory (image : Image) : Store64K Byte := image.cells.map (·.getD 0)

theorem read_memory (image : Image) (a : Word) : image.memory.read a = (image.get? a).getD 0 := by
  simp [memory, get?, Store64K.read]

theorem mem_toList (image : Image) (a : Word) (b : Byte) :
    (a, b) ∈ image.toList ↔ image.get? a = some b := by
  unfold toList get? Store64K.read
  simp only [List.mem_filterMap, Prod.exists, List.mem_zipIdx_iff_getElem?, Option.map_eq_some_iff,
    Prod.mk.injEq]
  constructor
  · rintro ⟨cell, i, hi, b', rfl, rfl, rfl⟩
    obtain ⟨hlt, he⟩ := List.getElem?_eq_some_iff.1 hi
    have hi' : i < 0x10000 := by simpa using hlt
    have e : (UInt16.ofNat i).toNat = i := UInt16.toNat_ofNat_of_lt' hi'
    simp only [e]
    simpa using he
  · intro h
    refine ⟨some b, a.toNat, ?_, b, rfl, by simp, rfl⟩
    rw [List.getElem?_eq_getElem (by simpa using a.toNat_lt)]
    simpa using h

/-- The addresses are listed in ascending order. -/
theorem pairwise_toList (image : Image) : image.toList.Pairwise (·.1 < ·.1) := by
  unfold toList
  rw [List.pairwise_filterMap, List.pairwise_iff_getElem]
  rintro i j hi hj hij ⟨a, b⟩ he ⟨a', b'⟩ he'
  simp only [List.getElem_zipIdx, Option.map_eq_some_iff, Prod.mk.injEq] at he he'
  obtain ⟨_, -, rfl, -⟩ := he
  obtain ⟨_, -, rfl, -⟩ := he'
  have hj' : j < UInt16.size := by simpa using hj
  have hi' : i < UInt16.size := Nat.lt_trans hij hj'
  show (UInt16.ofNat (0 + i)).toNat < (UInt16.ofNat (0 + j)).toNat
  rwa [Nat.zero_add, Nat.zero_add, UInt16.toNat_ofNat_of_lt' hi', UInt16.toNat_ofNat_of_lt' hj']

/-- The cells of an image in ascending order are its list. -/
theorem toList_of_entries {image : Image} {entries : List (Word × Byte)}
    (ascending : entries.Pairwise (·.1 < ·.1))
    (cells : ∀ a b, (a, b) ∈ entries ↔ image.get? a = some b) : image.toList = entries := by
  have distinct {l : List (Word × Byte)} (h : l.Pairwise (·.1 < ·.1)) : l.Nodup := by
    refine h.imp fun {x y} lt e => ?_
    rw [e] at lt
    exact UInt16.lt_irrefl _ lt
  have same : image.toList.Perm entries := by
    refine (List.perm_ext_iff_of_nodup (distinct image.pairwise_toList) (distinct ascending)).2 ?_
    rintro ⟨a, b⟩
    rw [mem_toList, cells]
  refine same.eq_of_pairwise ?_ image.pairwise_toList ascending
  intro x y _ _ hxy hyx
  exact absurd hyx (UInt16.lt_asymm hxy)

/-! ## Accepted images -/

theorem toList_ofBinary {dump : List Byte} {image : Image} (h : ofBinary dump = .ok image) :
    image.toList ≠ [] := by
  unfold ofBinary at h
  split at h
  · cases h
  · next hne =>
    split at h
    · cases h
    · next hle =>
      cases h
      cases dump with
      | nil => simp at hne
      | cons b dump =>
        have : (0, b) ∈ (empty.write 0 (b :: dump)).toList := by
          rw [mem_toList, get?_write empty 0 0 (b :: dump) (by omega)]
          rfl
        exact List.ne_nil_of_mem this

theorem toList_ofIntelHex {text : List Byte} {image : Image} (h : ofIntelHex text = .ok image) :
    image.toList ≠ [] := by
  unfold ofIntelHex at h
  split at h
  · next image' _ =>
    split at h
    · cases h
    · next hne =>
      cases h
      simpa using hne
  · cases h

theorem toList_parse {format : ImageFormat} {file : List Byte} {image : Image}
    (h : parse format file = .ok image) : image.toList ≠ [] := by
  cases format with
  | intelHex => exact toList_ofIntelHex h
  | binary => exact toList_ofBinary h
  | auto =>
    unfold parse at h
    dsimp only at h
    split at h
    · exact toList_ofIntelHex h
    · exact toList_ofBinary h

/-- An empty file is no image, whatever its format. -/
theorem parse_nil (format : ImageFormat) (image : Image) : parse format [] ≠ .ok image := by
  have nothing : empty.toList = [] := by
    refine List.eq_nil_iff_forall_not_mem.2 fun (a, b) h => ?_
    rw [mem_toList, get?_empty] at h
    cases h
  cases format with
  | intelHex =>
    intro h
    have read : readRecords empty 1 (splitLines []) = .ok empty := rfl
    simp [parse, ofIntelHex, read, nothing] at h
  | binary | auto => intro h; cases h

end Image

end Trainer51
