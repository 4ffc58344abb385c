import Trainer51.Proofs.Image.Cells
import Trainer51.Proofs.Listing.Tiling

/-!
# Looking up rows by address

In a listing whose rows follow each other without overlap an address falls on one row at most, and
the listing finds it.

    covering? a = some row ↔ row ∈ rows ∧ row.covers a                    (covering?_eq_some_iff)
    rows.filter (covers a) = (covering? a).toList                         (filter_covers)
    (index? a).isSome ↔ ∃ row ∈ rows, row.address = a                     (index?_isSome_iff)
-/

namespace Trainer51

/-- A row ends before another begins. -/
def Row.Before (r s : Row) : Prop := r.address.toNat + r.bytes.length ≤ s.address.toNat

/-! ## Rows in ascending order -/

/-- Bytes at ascending addresses do not wrap at the end of memory. -/
theorem placeFrom_fits {a : Word} {bytes : List Byte}
    (h : (placeFrom a bytes).Pairwise (·.1 < ·.1)) : a.toNat + bytes.length ≤ 0x10000 := by
  induction bytes generalizing a with
  | nil => exact Nat.le_of_lt a.toNat_lt
  | cons b bytes ih =>
    obtain ⟨hlt, hrest⟩ := List.pairwise_cons.1 h
    cases bytes with
    | nil => exact a.toNat_lt
    | cons c bytes =>
      have h1 : a < a + 1 := hlt (a + 1, c) List.mem_cons_self
      have h2 := ih hrest
      have hone : (1 : UInt16).toNat = 1 := rfl
      rw [UInt16.lt_iff_toNat_lt, UInt16.toNat_add, hone] at h1
      rw [UInt16.toNat_add, hone] at h2
      rw [List.length_cons]
      omega

theorem Row.covers_iff {row : Row} (fits : row.address.toNat + row.bytes.length ≤ 0x10000)
    (a : Word) : row.covers a = true ↔ ∃ b, (a, b) ∈ row.placed := by
  simp only [covers, placed, mem_placeFrom, Bool.and_eq_true, decide_eq_true_eq]
  constructor
  · rintro ⟨hle, hlt⟩
    have hi : a.toNat - row.address.toNat < row.bytes.length := by omega
    refine ⟨row.bytes[a.toNat - row.address.toNat], a.toNat - row.address.toNat,
      List.getElem?_eq_getElem hi, ?_⟩
    have ha := a.toNat_lt
    apply UInt16.toNat_inj.1
    rw [UInt16.toNat_add, UInt16.toNat_ofNat']
    omega
  · rintro ⟨b, i, hi, rfl⟩
    obtain ⟨hlt, -⟩ := List.getElem?_eq_some_iff.1 hi
    rw [UInt16.toNat_add, UInt16.toNat_ofNat']
    omega

/-- Rows of bytes at ascending addresses follow each other without overlap. -/
theorem rows_before {rows : List Row} (hne : ∀ row ∈ rows, row.bytes ≠ [])
    (h : (rows.flatMap Row.placed).Pairwise (·.1 < ·.1)) : rows.Pairwise Row.Before := by
  obtain ⟨hin, hout⟩ := List.pairwise_flatMap.1 h
  refine hout.imp_of_mem fun {r s} hr hs hlt => ?_
  have fits := placeFrom_fits (hin r hr)
  have hlen := List.length_pos_iff.2 (hne r hr)
  obtain ⟨c, bytes, hc⟩ := List.exists_cons_of_ne_nil (hne s hs)
  -- the last byte of the one row is below the first byte of the other
  have hlast : (r.address + UInt16.ofNat (r.bytes.length - 1), r.bytes[r.bytes.length - 1]) ∈
      r.placed := (mem_placeFrom _ _ _ _).2 ⟨_, List.getElem?_eq_getElem (by omega), rfl⟩
  have hfirst : (s.address, c) ∈ s.placed := by
    rw [Row.placed, hc]
    exact List.mem_cons_self
  have hcross : (r.address + UInt16.ofNat (r.bytes.length - 1)).toNat < s.address.toNat :=
    hlt _ hlast _ hfirst
  rw [UInt16.toNat_add, UInt16.toNat_ofNat'] at hcross
  unfold Row.Before
  omega

/-- No address falls on two rows of which one ends before the other. -/
theorem Row.Before.not_covers {r s : Row} (h : r.Before s) {a : Word} (hr : r.covers a = true) :
    ¬ s.covers a = true := by
  unfold Before at h
  simp only [covers, Bool.and_eq_true, decide_eq_true_eq] at hr ⊢
  omega

theorem split_rows {rows : List Row} (h : rows.Pairwise Row.Before) {row : Row} (hr : row ∈ rows) :
    ∃ l₁ l₂, rows = l₁ ++ row :: l₂ ∧ (∀ r ∈ l₁, r.Before row) ∧ ∀ r ∈ l₂, row.Before r := by
  obtain ⟨l₁, l₂, rfl⟩ := List.append_of_mem hr
  obtain ⟨-, h2, h12⟩ := List.pairwise_append.1 h
  exact ⟨l₁, l₂, rfl, fun r hr => h12 r hr row List.mem_cons_self, (List.pairwise_cons.1 h2).1⟩

namespace Listing

/-! ## The covering row -/

theorem mem_of_foldl_nearer {a : Word} {rows : List Row} {best : Option Row} {row : Row}
    (h : rows.foldl (nearer a) best = some row) : row ∈ rows ∨ best = some row := by
  induction rows generalizing best with
  | nil => exact .inr h
  | cons r rows ih =>
    rcases ih h with hrow | hrow
    · exact .inl (List.mem_cons_of_mem _ hrow)
    · unfold nearer at hrow
      split at hrow
      · cases hrow
        exact .inl List.mem_cons_self
      · exact .inr hrow

/-- Rows that start after `a` are passed over. -/
theorem foldl_nearer_above {a : Word} {rows : List Row} {best : Option Row}
    (h : ∀ r ∈ rows, a < r.address) : rows.foldl (nearer a) best = best := by
  induction rows with
  | nil => rfl
  | cons r rows ih =>
    have hr : ¬ r.address ≤ a := UInt16.not_le.2 (h r List.mem_cons_self)
    have hn : nearer a best r = best := if_neg fun hc => hr hc.1
    rw [List.foldl_cons, hn]
    exact ih fun r hr => h r (List.mem_cons_of_mem _ hr)

theorem foldl_nearer_of_covers {a : Word} {rows : List Row} {row : Row}
    (h : rows.Pairwise Row.Before) (hr : row ∈ rows) (hc : row.covers a = true) :
    rows.foldl (nearer a) none = some row := by
  obtain ⟨l₁, l₂, rfl, h1, h2⟩ := split_rows h hr
  simp only [Row.covers, Bool.and_eq_true, decide_eq_true_eq] at hc
  have hbest : (l₁.foldl (nearer a) none).all (·.address ≤ row.address) = true := by
    cases hb : l₁.foldl (nearer a) none with
    | none => rfl
    | some best =>
      rcases mem_of_foldl_nearer hb with hm | hm
      · have := h1 best hm
        unfold Row.Before at this
        simp only [Option.all_some, decide_eq_true_eq, UInt16.le_iff_toNat_le]
        omega
      · cases hm
  have hn : nearer a (l₁.foldl (nearer a) none) row = some row :=
    if_pos ⟨UInt16.le_iff_toNat_le.2 hc.1, hbest⟩
  rw [List.foldl_append, List.foldl_cons, hn]
  refine foldl_nearer_above fun r hr => ?_
  have := h2 r hr
  unfold Row.Before at this
  rw [UInt16.lt_iff_toNat_lt]
  omega

theorem covering?_ofRows (rows : List Row) (a : Word) :
    (ofRows rows).covering? a = (rows.foldl (nearer a) none).filter (·.covers a) := by
  simp [covering?, ofRows]

theorem covering?_eq_some_iff {rows : List Row} (h : rows.Pairwise Row.Before) (a : Word)
    (row : Row) : (ofRows rows).covering? a = some row ↔ row ∈ rows ∧ row.covers a = true := by
  rw [covering?_ofRows, Option.filter_eq_some_iff]
  constructor
  · rintro ⟨hf, hc⟩
    rcases mem_of_foldl_nearer hf with hm | hm
    · exact ⟨hm, hc⟩
    · cases hm
  · rintro ⟨hr, hc⟩
    exact ⟨foldl_nearer_of_covers h hr hc, hc⟩

/-- The row that is found is the only one that `a` falls on. -/
theorem filter_covers {rows : List Row} (h : rows.Pairwise Row.Before) (a : Word) :
    rows.filter (·.covers a) = ((ofRows rows).covering? a).toList := by
  cases hc : (ofRows rows).covering? a with
  | none =>
    rw [Option.toList_none, List.filter_eq_nil_iff]
    intro row hr hcov
    rw [(covering?_eq_some_iff h a row).2 ⟨hr, hcov⟩] at hc
    cases hc
  | some row =>
    obtain ⟨hr, hcov⟩ := (covering?_eq_some_iff h a row).1 hc
    obtain ⟨l₁, l₂, rfl, h1, h2⟩ := split_rows h hr
    have e1 : l₁.filter (·.covers a) = [] :=
      List.filter_eq_nil_iff.2 fun r hr hc => (h1 r hr).not_covers hc hcov
    have e2 : l₂.filter (·.covers a) = [] :=
      List.filter_eq_nil_iff.2 fun r hr => (h2 r hr).not_covers hcov
    rw [List.filter_append, List.filter_cons, if_pos hcov, e1, e2]
    rfl

/-! ## Rows by their first address -/

theorem index?_isSome_iff (rows : List Row) (a : Word) :
    ((ofRows rows).index? a).isSome = true ↔ ∃ row ∈ rows, row.address = a := by
  have hmem : ∀ row, (∃ i, (row, i) ∈ rows.zipIdx) ↔ row ∈ rows := by
    intro row
    rw [List.mem_iff_getElem?]
    simp only [List.mem_zipIdx_iff_getElem?]
  simp [index?, ofRows, hmem]

end Listing

/-! ## The listing of an image -/

/-- Bytes in an otherwise empty image. -/
theorem Image.toList_write_empty {a : Word} {bytes : List Byte}
    (h : (placeFrom a bytes).Pairwise (·.1 < ·.1)) :
    (Image.empty.write a bytes).toList = placeFrom a bytes := by
  have fits := placeFrom_fits h
  refine toList_of_entries h fun c b => ?_
  have alone : (empty.write a bytes).get? c = bytes[(c - a).toNat]? := by
    rw [get?_write _ _ _ _ (by omega), get?_empty]
    cases bytes[(c - a).toNat]? <;> rfl
  rw [alone, mem_placeFrom]
  constructor
  · rintro ⟨i, hi, rfl⟩
    obtain ⟨hlt, -⟩ := List.getElem?_eq_some_iff.1 hi
    have back : (a + UInt16.ofNat i - a).toNat = i := by
      have ha := a.toNat_lt
      rw [UInt16.toNat_sub, UInt16.toNat_add, UInt16.toNat_ofNat']
      omega
    rwa [back]
  · intro hc
    refine ⟨(c - a).toNat, hc, ?_⟩
    rw [UInt16.ofNat_toNat, UInt16.add_comm, UInt16.sub_add_cancel]

theorem Image.rows_before (image : Image) : image.rows.Pairwise Row.Before := by
  refine Trainer51.rows_before (fun row hr => ?_) (image.rows_placed ▸ image.pairwise_toList)
  exact List.length_pos_iff.1 (image.rows_listed row hr).length_bounds.1

/-- The rows of an image do not wrap, so a row covers just the addresses of its bytes. -/
theorem Image.covers_row_iff (image : Image) {row : Row} (hr : row ∈ image.rows) (a : Word) :
    row.covers a = true ↔ ∃ b, (a, b) ∈ row.placed := by
  have hp := image.pairwise_toList
  rw [← image.rows_placed] at hp
  exact Row.covers_iff (placeFrom_fits ((List.pairwise_flatMap.1 hp).1 row hr)) a

/-- The rows of an image cover just the addresses at which it holds a byte. -/
theorem Image.covering?_isSome_iff (image : Image) (a : Word) :
    ((Listing.ofRows image.rows).covering? a).isSome = true ↔ (image.get? a).isSome = true := by
  constructor
  · intro h
    obtain ⟨row, hrow⟩ := Option.isSome_iff_exists.1 h
    obtain ⟨hr, hc⟩ := (Listing.covering?_eq_some_iff image.rows_before a row).1 hrow
    obtain ⟨b, hb⟩ := (image.covers_row_iff hr a).1 hc
    have hm : (a, b) ∈ image.toList := image.rows_placed ▸ List.mem_flatMap.2 ⟨row, hr, hb⟩
    rw [(image.mem_toList a b).1 hm]
    rfl
  · intro h
    obtain ⟨b, hb⟩ := Option.isSome_iff_exists.1 h
    have hm := (image.mem_toList a b).2 hb
    rw [← image.rows_placed] at hm
    obtain ⟨row, hr, hp⟩ := List.mem_flatMap.1 hm
    have hc := (image.covers_row_iff hr a).2 ⟨b, hp⟩
    rw [(Listing.covering?_eq_some_iff image.rows_before a row).2 ⟨hr, hc⟩]
    rfl

end Trainer51
