import Trainer51.Proofs.Workbench.Rows
import Trainer51.Screen.Grid
import Trainer51.Terminal

/-!
# The arrow keys walk the listing

An arrow key goes from the selected address to the row that covers it, from there to a position,
then to the position beside it and back to an address.  In a listing whose rows follow each other
none of these steps is lost, so each press moves the selection by one row until an end is reached.

    a press selects the neighbour of the selected row, and nothing else changes   (handle_press)
    many presses lead to the row that their directions lead to              (selectsOnly_route)
    a key selects nothing but rows of the listing                        (mem_rows_of_commands)
-/

namespace Trainer51

/-! ## Selected rows -/

namespace Workbench

variable {M : Type}

/-- The workbench with an address selected. -/
def withSelected (w : Workbench M) (a : Word) : Workbench M :=
  { w with cursor := { w.cursor with selected := some a } }

theorem listing_withSelected (w : Workbench M) (a : Word) :
    (w.withSelected a).listing = w.listing := rfl

/-- Row `i` of the listing is the selected one. -/
def Selects (w : Workbench M) (i : Nat) : Prop :=
  ∃ row, w.listing.rows[i]? = some row ∧ w.cursor.selected = some row.address

/-- `v` differs from `w` in nothing but that row `i` is selected. -/
def SelectsOnly (w v : Workbench M) (i : Nat) : Prop :=
  ∃ row, w.listing.rows[i]? = some row ∧ v = w.withSelected row.address

theorem Selects.selectsOnly {w : Workbench M} {i : Nat} (h : w.Selects i) : w.SelectsOnly w i := by
  obtain ⟨row, hi, selected⟩ := h
  refine ⟨row, hi, ?_⟩
  unfold withSelected
  rw [← selected]

theorem SelectsOnly.eq_of_selects {w v : Workbench M} {i : Nat} (h : w.SelectsOnly v i)
    (selects : w.Selects i) : v = w := by
  obtain ⟨row, hi, rfl⟩ := h
  obtain ⟨row', hi', selected⟩ := selects
  cases hi.symm.trans hi'
  unfold withSelected
  rw [← selected]

theorem Selects.lt_size {w : Workbench M} {i : Nat} (h : w.Selects i) : i < w.listing.size := by
  obtain ⟨row, hi, -⟩ := h
  exact (Array.getElem?_eq_some_iff.1 hi).1

theorem selectRow_of_mem [Machine M] {w : Workbench M} {row : Row} (h : row ∈ w.listing.rows) :
    w.selectRow row.address =
      (w.withSelected row.address).announce (.rowSelected row.address) true := by
  unfold selectRow
  rw [if_pos (Listing.isSome_index?_of_mem h)]
  rfl

theorem bench_selectRow_of_mem [Machine M] {w : Workbench M} {row : Row}
    (h : row ∈ w.listing.rows) {a : Word} (starts : row.address = a) :
    (w.selectRow a).bench = w.withSelected a := by
  rw [← starts, selectRow_of_mem h]
  rfl

end Workbench

/-! ## Presses -/

/-- The direction in which a key moves the selection, when it goes down or is held down. -/
def KeyEvent.direction? (e : KeyEvent) : Option Terminal.Direction :=
  if e.action = .release then none
  else
    match e.code with
    | .up => some .up
    | .down => some .down
    | _ => none

namespace Terminal

variable {M : Type} {t : Terminal} {w : Workbench M} {d : Direction} {e : KeyEvent} {i : Nat}

theorem Direction.neighbour_lt (d : Direction) {rows position : Nat} (h : position < rows) :
    d.neighbour rows position < rows := by
  cases d with
  | up =>
    show position - 1 < rows
    omega
  | down =>
    show min (position + 1) (rows - 1) < rows
    omega

/-- The position that presses in some directions lead to, in a listing of `rows` rows. -/
def route (rows position : Nat) (ds : List Direction) : Nat :=
  ds.foldl (fun position d => d.neighbour rows position) position

theorem route_up (rows position k : Nat) :
    route rows position (.replicate k .up) = position - k := by
  induction k generalizing position with
  | zero => rfl
  | succ k ih =>
    show route rows (position - 1) (.replicate k .up) = position - (k + 1)
    rw [ih]
    omega

theorem route_down {rows position : Nat} (h : position < rows) (k : Nat) :
    route rows position (.replicate k .down) = min (position + k) (rows - 1) := by
  induction k generalizing position with
  | zero =>
    show position = min position (rows - 1)
    omega
  | succ k ih =>
    have next : min (position + 1) (rows - 1) < rows := by omega
    show route rows (min (position + 1) (rows - 1)) (.replicate k .down) = _
    rw [ih next]
    omega

theorem arrowCommand?_of_selects (ordered : w.listing.Ordered) (focus : t.focus = .listing)
    (selects : w.Selects i) :
    t.arrowCommand? w d =
      w.listing.rows[d.neighbour w.listing.size i]?.map fun row => .selectRow row.address := by
  obtain ⟨row, hi, selected⟩ := selects
  have position : w.listing.position? (w.cursor.selected.getD w.cursor.current) = some i := by
    rw [selected]
    exact ordered.position?_address hi
  unfold arrowCommand? arrowPosition
  rw [focus, position]

section Sessions

variable [Geometry]

theorem commands_of_direction? (he : e.direction? = some d) :
    t.commands w (.key e) = (t, (t.arrowCommand? w d).toList) := by
  unfold KeyEvent.direction? at he
  split at he
  · cases he
  · next down =>
    unfold commands keyCommand
    dsimp only
    rw [if_neg down]
    split at he
    · next code =>
      cases he
      rw [code]
    · next code =>
      cases he
      rw [code]
    · cases he

variable [Machine M]

/-- A press selects the neighbour of the selected row. -/
theorem handle_press (ordered : w.listing.Ordered) (focus : t.focus = .listing)
    (selects : w.Selects i) (he : e.direction? = some d) (now : Nat) :
    ∃ row, w.listing.rows[d.neighbour w.listing.size i]? = some row ∧
      t.handle w now (.key e) =
        ({ t with status := none },
          ⟨w.withSelected row.address, [.rowSelected row.address], ()⟩) := by
  have inside := d.neighbour_lt selects.lt_size
  obtain ⟨row, hrow⟩ : ∃ row, w.listing.rows[d.neighbour w.listing.size i]? = some row :=
    ⟨_, Array.getElem?_eq_getElem inside⟩
  refine ⟨row, hrow, ?_⟩
  have accepted := Workbench.selectRow_of_mem (Array.mem_of_getElem? hrow)
  unfold handle
  rw [commands_of_direction? he, arrowCommand?_of_selects ordered focus selects, hrow]
  simp only [Option.map_some, Option.toList_some, applyAll, Workbench.apply, accepted]
  rfl

/-! ## Many presses -/

/-- Terminal and workbench after some keys, each at its time. -/
def afterKeys (t : Terminal) (w : Workbench M) : List (Nat × KeyEvent) → Terminal × Workbench M
  | [] => (t, w)
  | (now, e) :: keys =>
    let (t, o) := t.handle w now (.key e)
    t.afterKeys o.bench keys

theorem afterKeys_cons (t : Terminal) (w : Workbench M) (key : Nat × KeyEvent)
    (keys : List (Nat × KeyEvent)) :
    t.afterKeys w (key :: keys) =
      (t.handle w key.1 (.key key.2)).1.afterKeys (t.handle w key.1 (.key key.2)).2.bench keys :=
  rfl

/-- Every press moves the selection by one row. -/
theorem selectsOnly_route (ordered : w.listing.Ordered) (focus : t.focus = .listing)
    (selects : w.Selects i) {keys : List (Nat × KeyEvent)} {ds : List Direction}
    (presses : keys.map (·.2.direction?) = ds.map some) :
    w.SelectsOnly (t.afterKeys w keys).2 (route w.listing.size i ds) := by
  induction keys generalizing t w i ds with
  | nil =>
    obtain rfl := List.map_eq_nil_iff.1 presses.symm
    exact selects.selectsOnly
  | cons key keys ih =>
    obtain ⟨d, ds, rfl, press, presses⟩ := List.map_eq_cons_iff.1 presses.symm
    obtain ⟨row, hrow, handled⟩ := handle_press ordered focus selects press.symm key.1
    have next : (w.withSelected row.address).Selects (d.neighbour w.listing.size i) :=
      ⟨row, hrow, rfl⟩
    rw [afterKeys_cons, handled]
    -- the listing is still the same, and what is selected in between does not count
    exact ih (t := { t with status := none }) (w := w.withSelected row.address) ordered focus next
      presses.symm

omit [Geometry] in
/-- Presses in one direction. -/
theorem map_direction?_eq {keys : List (Nat × KeyEvent)}
    (presses : ∀ k ∈ keys, k.2.direction? = some d) :
    keys.map (·.2.direction?) = (List.replicate keys.length d).map some := by
  rw [List.map_replicate]
  exact List.map_eq_replicate_iff.2 presses

/-! ## What a key may select -/

omit [Geometry] in
theorem command?_ne_selectRow (b : Bindings) (space : MemorySpace) (c : Char) (a : Word) :
    b.command? space c ≠ some (.selectRow a) := by
  unfold Bindings.command?
  repeat' split
  all_goals exact nofun

omit [Geometry] [Machine M] in
theorem mem_rows_of_arrowCommand? {a : Word} (h : t.arrowCommand? w d = some (.selectRow a)) :
    ∃ row ∈ w.listing.rows, row.address = a := by
  unfold arrowCommand? at h
  split at h
  · obtain ⟨row, hrow, same⟩ := Option.map_eq_some_iff.1 h
    cases same
    exact ⟨row, Array.mem_of_getElem? hrow, rfl⟩
  · cases h
  · cases h

omit [Geometry] [Machine M] in
/-- Of all keys only the arrows select, and what they select is where a row starts. -/
theorem mem_rows_of_keyCommand {a : Word} (h : (t.keyCommand w e).2 = some (.selectRow a)) :
    ∃ row ∈ w.listing.rows, row.address = a := by
  unfold keyCommand at h
  split at h
  case h_1 =>
    split at h
    · cases h
    · exact absurd h (command?_ne_selectRow _ _ _ _)
  case h_4 | h_5 => exact mem_rows_of_arrowCommand? h
  case h_9 =>
    obtain ⟨cell, -, same⟩ := Option.map_eq_some_iff.1 h
    cases same
  all_goals cases h

omit [Machine M] in
theorem mem_rows_of_commands {a : Word} (h : .selectRow a ∈ (t.commands w (.key e)).2) :
    ∃ row ∈ w.listing.rows, row.address = a := by
  unfold commands at h
  dsimp only at h
  split at h
  · cases h
  · exact mem_rows_of_keyCommand (Option.mem_toList.1 h)

/-! ## Every session -/

/-- The arrow keys walk the listing from the selected row `i`, and nothing changes but the row that
is selected. -/
structure Walks (t : Terminal) (w : Workbench M) (i : Nat) : Prop where
  down : ∀ keys : List (Nat × KeyEvent), (∀ k ∈ keys, k.2.direction? = some .down) →
    w.SelectsOnly (t.afterKeys w keys).2 (min (i + keys.length) (w.listing.size - 1))
  up : ∀ keys : List (Nat × KeyEvent), (∀ k ∈ keys, k.2.direction? = some .up) →
    w.SelectsOnly (t.afterKeys w keys).2 (i - keys.length)
  /-- The presses may go up and down in any order. -/
  mixed : ∀ (keys : List (Nat × KeyEvent)) (ds : List Direction),
    keys.map (·.2.direction?) = ds.map some →
      w.SelectsOnly (t.afterKeys w keys).2 (route w.listing.size i ds)
  /-- Every row can be reached, whatever keys are used as arrows. -/
  reach : ∀ j < w.listing.size, ∃ ds : List Direction, ∀ keys : List (Nat × KeyEvent),
    keys.map (·.2.direction?) = ds.map some → w.SelectsOnly (t.afterKeys w keys).2 j
  /-- Down and up again leads back, unless there is no row further down. -/
  back : ∀ down up : Nat × KeyEvent, down.2.direction? = some .down → up.2.direction? = some .up →
    i + 1 < w.listing.size → (t.afterKeys w [down, up]).2 = w
  last : ∀ down up : Nat × KeyEvent, down.2.direction? = some .down → up.2.direction? = some .up →
    i + 1 = w.listing.size → w.SelectsOnly (t.afterKeys w [down, up]).2 (i - 1)

theorem walks_of_selects (ordered : w.listing.Ordered) (focus : t.focus = .listing)
    (selects : w.Selects i) : t.Walks w i := by
  have inside := selects.lt_size
  have mixed (keys : List (Nat × KeyEvent)) (ds : List Direction)
      (presses : keys.map (·.2.direction?) = ds.map some) :=
    selectsOnly_route ordered focus selects presses
  have around (down up : Nat × KeyEvent) (hdown : down.2.direction? = some .down)
      (hup : up.2.direction? = some .up) :
      w.SelectsOnly (t.afterKeys w [down, up]).2 (min (i + 1) (w.listing.size - 1) - 1) :=
    mixed [down, up] [.down, .up] (by simp [hdown, hup])
  constructor
  case down =>
    intro keys presses
    rw [← route_down inside]
    exact mixed _ _ (map_direction?_eq presses)
  case up =>
    intro keys presses
    rw [← route_up w.listing.size]
    exact mixed _ _ (map_direction?_eq presses)
  case mixed => exact mixed
  case reach =>
    intro j hj
    rcases Nat.le_total i j with below | above
    · have there : route w.listing.size i (.replicate (j - i) .down) = j := by
        rw [route_down inside]
        omega
      exact ⟨_, fun keys presses => there ▸ mixed keys _ presses⟩
    · have there : route w.listing.size i (.replicate (i - j) .up) = j := by
        rw [route_up]
        omega
      exact ⟨_, fun keys presses => there ▸ mixed keys _ presses⟩
  case back =>
    intro down up hdown hup further
    have same : min (i + 1) (w.listing.size - 1) - 1 = i := by omega
    have round := around down up hdown hup
    rw [same] at round
    exact round.eq_of_selects selects
  case last =>
    intro down up hdown hup last
    have one_up : min (i + 1) (w.listing.size - 1) - 1 = i - 1 := by omega
    have round := around down up hdown hup
    rwa [one_up] at round

/-- **The arrow keys walk the listing.**  Whatever has been loaded and done before: with the listing
in focus and a row selected, each press of an arrow key selects the row beside it, until the first
or the last row is reached, and changes nothing else.  In every state of terminal and workbench a
row that a key selects is one that can be selected. -/
theorem arrows_after_new (d : Dsm51) (format : ImageFormat) (s : Settings) (script : Script)
    (t : Terminal) :
    let w := (Workbench.new d (Dsm51.lister format) s).after script
    (∀ i, t.focus = .listing → w.Selects i → t.Walks w i) ∧
      ∀ (e : KeyEvent) (a : Word), .selectRow a ∈ (t.commands w (.key e)).2 →
        (w.selectRow a).result = true ∧ (w.selectRow a).bench = w.withSelected a := by
  intro w
  have ordered : w.listing.Ordered := Workbench.ordered_after_new d format s script
  constructor
  · exact fun i focus selects => walks_of_selects ordered focus selects
  · intro e a asked
    obtain ⟨row, hrow, rfl⟩ := mem_rows_of_commands asked
    rw [Workbench.selectRow_of_mem hrow]
    exact ⟨rfl, rfl⟩

end Sessions

/-- An instruction of two bytes between one of a single byte and a byte of data. -/
def threeRows : List Byte := [0x00, 0x74, 0x05, 0x02]

def listingOfThree : List Row :=
  [⟨0, [0x00], "NOP"⟩, ⟨1, [0x74, 0x05], "MOV A, #5"⟩, ⟨3, [0x02], "DB 2h"⟩]

theorem rows_threeRows : (Image.empty.write 0 threeRows).rows = listingOfThree := by
  unfold Image.rows Image.runs
  rw [Image.toList_write_empty (by decide)]
  rfl

theorem listing_load_threeRows (w : Workbench Dsm51)
    (lister : w.lister = Dsm51.lister w.machine.format) (format : w.machine.format = .binary) :
    (w.load threeRows).bench.listing = .ofRows listingOfThree := by
  have parsed : Image.parse w.machine.format threeRows = .ok (Image.empty.write 0 threeRows) := by
    rw [format]
    rfl
  rw [Workbench.load_of_parse lister parsed, ← rows_threeRows]
  rfl

theorem after_load_selectRow (w : Workbench Dsm51) (file : List Byte) (a : Word) :
    w.after [(0, .command (.load file)), (0, .command (.selectRow a))] =
      ((w.load file).bench.selectRow a).bench := rfl

/-- Twice down from the middle leads to the last row, and down and up back to the middle. -/
theorem arrows_after_new_threeRows :
    let w := (Workbench.new (Dsm51.new .binary) (Dsm51.lister .binary) {}).after
      [(0, .command (.load threeRows)), (0, .command (.selectRow 1))]
    let t : Terminal := {}
    let down : Nat × KeyEvent := (0, { code := .down })
    let up : Nat × KeyEvent := (0, { code := .up })
    t.focus = .listing ∧ w.Selects 1 ∧
      (t.afterKeys w [down, down]).2.cursor.selected = some 3 ∧ (t.afterKeys w [down, up]).2 = w ∧
      .selectRow 3 ∈ (t.commands w (.key down.2)).2 ∧ (w.selectRow 3).result = true := by
  intro w t down up
  have loaded := listing_load_threeRows
    (Workbench.new (Dsm51.new .binary) (Dsm51.lister .binary) {}) rfl rfl
  have middle : (⟨1, [0x74, 0x05], "MOV A, #5"⟩ : Row) ∈
      ((Workbench.new (Dsm51.new .binary) (Dsm51.lister .binary) {}).load
        threeRows).bench.listing.rows := by
    rw [loaded]
    exact Array.mem_of_getElem? (i := 1) rfl
  have bench : w = Workbench.withSelected _ 1 :=
    (after_load_selectRow _ threeRows 1).trans (Workbench.bench_selectRow_of_mem middle rfl)
  have listing : w.listing = .ofRows listingOfThree := by
    rw [bench, Workbench.listing_withSelected, loaded]
  have selects : w.Selects 1 := by
    refine ⟨⟨1, [0x74, 0x05], "MOV A, #5"⟩, by rw [listing]; rfl, ?_⟩
    rw [bench]
    rfl
  have session := arrows_after_new (Dsm51.new .binary) .binary {}
    [(0, .command (.load threeRows)), (0, .command (.selectRow 1))] t
  have walks : t.Walks w 1 := session.1 1 rfl selects
  have size : w.listing.size = 3 := by rw [listing]; rfl
  have ordered : w.listing.Ordered := Workbench.ordered_after_new _ _ _ _
  have asked : .selectRow 3 ∈ (t.commands w (.key down.2)).2 := by
    rw [commands_of_direction? rfl, arrowCommand?_of_selects ordered rfl selects, listing]
    exact List.mem_singleton_self _
  refine ⟨rfl, selects, ?_, ?_, asked, (session.2 _ _ asked).1⟩
  · obtain ⟨row, last, moved⟩ := walks.down [down, down] (by decide)
    rw [size, listing] at last
    cases last
    rw [moved]
    rfl
  · exact walks.back down up rfl rfl (by omega)

end Terminal

end Trainer51
