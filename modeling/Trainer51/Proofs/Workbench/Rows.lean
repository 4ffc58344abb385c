import Trainer51.Proofs.Dsm51.Load
import Trainer51.Proofs.Workbench.Consistency

/-!
# Rows by their position

A listing is asked for rows by address, a screen by position.  The rows that a board is given follow
each other and have bytes, so the two go together: an address is on one row at most, and the
position that is found for it is the position of that row.

    listing.index? a = some i ↔ row i starts at a                          (index?_eq_some_iff)
    listing.position? a = some i ↔ a is on row i                        (position?_eq_some_iff)
    the rows of a board are in order after every script                     (ordered_after_new)
-/

namespace Trainer51

namespace Listing

/-- The rows follow each other, and each has bytes. -/
structure Ordered (listing : Listing) : Prop where
  before : listing.rows.toList.Pairwise Row.Before
  bytes : ∀ row ∈ listing.rows, row.bytes ≠ []

theorem listed_empty : ∀ row ∈ ({} : Listing).rows, row.Listed := nofun

theorem ordered_empty : ({} : Listing).Ordered := ⟨.nil, nofun⟩

theorem listed_rows (image : Image) : ∀ row ∈ (ofRows image.rows).rows, row.Listed :=
  fun row hr => image.rows_listed row (Array.mem_toList_iff.2 hr)

theorem ordered_rows (image : Image) : (ofRows image.rows).Ordered where
  before := image.rows_before
  bytes row hr := List.length_pos_iff.1 (listed_rows image row hr).length_bounds.1

theorem ofRows_toList (listing : Listing) : ofRows listing.rows.toList = listing := by
  simp [ofRows]

/-- A row is found at the address at which it starts. -/
theorem isSome_index?_of_mem {listing : Listing} {row : Row} (h : row ∈ listing.rows) :
    (listing.index? row.address).isSome = true := by
  rw [← listing.ofRows_toList, index?_isSome_iff]
  exact ⟨row, Array.mem_toList_iff.2 h, rfl⟩

/-- What is found at an address is the position of a row that starts there. -/
theorem exists_of_index? {listing : Listing} {a : Word} {i : Nat}
    (h : listing.index? a = some i) : ∃ row, listing.rows[i]? = some row ∧ row.address = a := by
  obtain ⟨⟨row, j⟩, found, rfl⟩ := Option.map_eq_some_iff.1 h
  have mem := Array.mem_reverse.1 (Array.mem_of_find?_eq_some found)
  refine ⟨row, Array.mem_zipIdx_iff_getElem?.1 mem, ?_⟩
  simpa using Array.find?_some found

namespace Ordered

variable {listing : Listing} (h : listing.Ordered) {i j : Nat} {r s : Row}

include h

/-- A row starts below the ones behind it. -/
theorem address_lt (hi : listing.rows[i]? = some r) (hj : listing.rows[j]? = some s)
    (behind : i < j) : r.address.toNat < s.address.toNat := by
  obtain ⟨inside, rfl⟩ := Array.getElem?_eq_some_iff.1 hi
  obtain ⟨inside', rfl⟩ := Array.getElem?_eq_some_iff.1 hj
  have before : listing.rows[i].Before listing.rows[j] :=
    List.pairwise_iff_getElem.1 h.before i j inside inside' behind
  have bytes := List.length_pos_iff.2 (h.bytes listing.rows[i] (Array.getElem_mem inside))
  unfold Row.Before at before
  omega

/-- No two rows start at one address. -/
theorem eq_of_address (hi : listing.rows[i]? = some r) (hj : listing.rows[j]? = some s)
    (same : r.address = s.address) : i = j := by
  rcases Nat.lt_trichotomy i j with lt | eq | gt
  · have := h.address_lt hi hj lt
    rw [same] at this
    omega
  · exact eq
  · have := h.address_lt hj hi gt
    rw [same] at this
    omega

theorem index?_eq_some_iff (a : Word) :
    listing.index? a = some i ↔ ∃ row, listing.rows[i]? = some row ∧ row.address = a := by
  constructor
  · exact exists_of_index?
  · rintro ⟨row, hi, rfl⟩
    obtain ⟨j, found⟩ :=
      Option.isSome_iff_exists.1 (isSome_index?_of_mem (Array.mem_of_getElem? hi))
    obtain ⟨row', hj, same⟩ := exists_of_index? found
    rw [found, h.eq_of_address hj hi same]

theorem covering?_eq_some_iff (a : Word) :
    listing.covering? a = some r ↔ r ∈ listing.rows ∧ r.covers a = true := by
  have found := Listing.covering?_eq_some_iff h.before a r
  rwa [ofRows_toList, Array.mem_toList_iff] at found

/-- A row covers its own address. -/
theorem covers_self (hr : r ∈ listing.rows) : r.covers r.address = true := by
  have bytes := List.length_pos_iff.2 (h.bytes r hr)
  simpa [Row.covers] using bytes

theorem position?_eq_some_iff (a : Word) :
    listing.position? a = some i ↔ ∃ row, listing.rows[i]? = some row ∧ row.covers a = true := by
  unfold position?
  rw [Option.bind_eq_some_iff]
  constructor
  · rintro ⟨row, covering, index⟩
    obtain ⟨mem, covers⟩ := (h.covering?_eq_some_iff a).1 covering
    obtain ⟨row', hi, same⟩ := exists_of_index? index
    -- both rows start at the same address, so they are one
    obtain ⟨j, hj⟩ := Array.mem_iff_getElem?.1 mem
    obtain rfl := h.eq_of_address hi hj same
    exact ⟨row, hj, covers⟩
  · rintro ⟨row, hi, covers⟩
    refine ⟨row, (h.covering?_eq_some_iff a).2 ⟨Array.mem_of_getElem? hi, covers⟩, ?_⟩
    exact (h.index?_eq_some_iff row.address).2 ⟨row, hi, rfl⟩

/-- The position of the row that starts at an address. -/
theorem position?_address (hi : listing.rows[i]? = some r) :
    listing.position? r.address = some i :=
  (h.position?_eq_some_iff r.address).2 ⟨r, hi, h.covers_self (Array.mem_of_getElem? hi)⟩

end Ordered

end Listing

/-! ## The rows of a board -/

namespace Workbench

/-- A workbench whose files are listed as the board reads them, and what it lists now. -/
structure ListsBoard {M : Type} (format : ImageFormat) (w : Workbench M) : Prop where
  lister : w.lister = Dsm51.lister format
  ordered : w.listing.Ordered
  listed : ∀ row ∈ w.listing.rows, row.Listed

theorem Move.listsBoard {M : Type} [Machine M] {format : ImageFormat} {w : Workbench M}
    {o : Outcome M (Except BenchError Unit)} (move : Move w o) (h : w.ListsBoard format) :
    o.bench.ListsBoard format := by
  obtain ⟨lister, ordered, listed⟩ := h
  cases move with
  | loaded file rows machine accepted load =>
    obtain ⟨-, read, -, -⟩ := (accept_eq_ok_iff w file rows).1 accepted
    rw [lister] at read
    obtain ⟨image, -, rfl⟩ := Dsm51.parse_of_lister read
    exact ⟨lister, Listing.ordered_rows image, Listing.listed_rows image⟩
  | unloaded => exact ⟨lister, Listing.ordered_empty, Listing.listed_empty⟩
  | nothing | stepped | halted | begun | ended | reset => exact ⟨lister, ordered, listed⟩
  | refreshed | spaceSelected | rowSelected | scrolled => exact ⟨lister, ordered, listed⟩
  | pressed | released | allReleased => exact ⟨lister, ordered, listed⟩

theorem listsBoard_after_new {M : Type} [Machine M] (machine : M) (format : ImageFormat)
    (s : Settings) (script : Script) :
    ((new machine (Dsm51.lister format) s).after script).ListsBoard format :=
  after_of_move (fun _ _ move => move.listsBoard) _
    ⟨rfl, Listing.ordered_empty, Listing.listed_empty⟩ script

/-- Whatever has been loaded, the rows of the listing follow each other. -/
theorem ordered_after_new {M : Type} [Machine M] (machine : M) (format : ImageFormat)
    (s : Settings) (script : Script) :
    ((new machine (Dsm51.lister format) s).after script).listing.Ordered :=
  (listsBoard_after_new machine format s script).ordered

theorem selected_after_new {M : Type} [Machine M] (machine : M) (lister : Lister) (s : Settings)
    (script : Script) : ((new machine lister s).after script).SelectedStarts := by
  have unselected : (new machine lister s).cursor.selected = none := rfl
  refine after_of_move (fun _ _ move => move.selected) _ ?_ script
  exact fun a selected => nomatch unselected.symm.trans selected

end Workbench

end Trainer51
