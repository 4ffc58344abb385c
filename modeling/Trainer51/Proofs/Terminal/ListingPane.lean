import Trainer51.Proofs.KeyCap.Arrangement
import Trainer51.Proofs.Terminal.Arrows
import Trainer51.Proofs.Terminal.RowText

/-!
# The listing on the screen

The pane of the listing is a window into the rows.  Drawing places it so that one row stays in it,
and remembers where it begins.  A click is looked up from that beginning, so it hits the row that is
drawn under the pointer.  All of this is so on every canvas, however it shares out the screen.

    nothing else is drawn over the pane                                 (surroundings_outside)
    the row that is kept on the screen                                 (followed?_eq_some_iff)
    the window has it, and moves for nothing else              (follow_shows, follow_of_shown)
    a line of the pane has the text of its row                      (cell_listingLines_of_row)
    or it is blank                                                 (cell_listingLines_of_none)
    what a click on it asks for                                              (commands_render)
-/

namespace Trainer51

/-! ## Around the listing -/

namespace Layout

theorem bounded_screen (width height : UInt16) : (screen width height).Bounded := by
  constructor
  · show 0 + width.toNat ≤ 0xFFFF
    have := width.toNat_lt
    omega
  · show 0 + height.toNat ≤ 0xFFFF
    have := height.toNat_lt
    omega

/-- The listing has no cell in common with any other pane. -/
structure ListingApart [Geometry] (layout : Layout) : Prop where
  leftRule : layout.listing.Disjoint layout.leftRule
  hardware : layout.listing.Disjoint layout.hardware
  rightRule : layout.listing.Disjoint layout.rightRule
  memory : layout.listing.Disjoint layout.memory
  keypad : layout.listing.Disjoint layout.keypad
  status : layout.listing.Disjoint layout.status

/-- No cap of the keypad reaches into the listing. -/
def CapsApart [Geometry] (layout : Layout) : Prop :=
  ∀ cap ∈ KeyCap.arrange layout.keypad, cap.area.Disjoint layout.listing

variable [Canvas] [LawfulCanvas] {area : Rect}

theorem rows_within (bounded : area.Bounded) (i : Nat) (h : i < 2) : (rows area)[i].Within area :=
  LawfulCanvas.split_within .vertical rowExtents area bounded i h

theorem columns_within (bounded : area.Bounded) (i : Nat) (h : i < 5) :
    (columns area)[i].Within (rows area)[0] :=
  LawfulCanvas.split_within .horizontal columnExtents _
    (bounded.within (rows_within bounded 0 (by decide))) i h

theorem side_within (bounded : area.Bounded) (i : Nat) (h : i < 2) :
    (side area)[i].Within (columns area)[4] := by
  have column := (columns_within bounded 4 (by decide)).trans (rows_within bounded 0 (by decide))
  exact LawfulCanvas.split_within .vertical sideExtents _ (bounded.within column) i h

theorem listing_within (bounded : area.Bounded) : (ofScreen area).listing.Within area :=
  (columns_within bounded 0 (by decide)).trans (rows_within bounded 0 (by decide))

theorem keypad_within (bounded : area.Bounded) : (ofScreen area).keypad.Within area :=
  ((side_within bounded 1 (by decide)).trans (columns_within bounded 4 (by decide))).trans
    (rows_within bounded 0 (by decide))

theorem listingApart (bounded : area.Bounded) : (ofScreen area).ListingApart := by
  have first (i : Nat) (h : i < 5) (other : 0 ≠ i) :
      (columns area)[0].Disjoint (columns area)[i] :=
    LawfulCanvas.split_disjoint .horizontal columnExtents _
      (bounded.within (rows_within bounded 0 (by decide))) 0 i (by decide) h other
  have above : (rows area)[0].Disjoint (rows area)[1] :=
    LawfulCanvas.split_disjoint .vertical rowExtents area bounded 0 1 (by decide) (by decide)
      (by decide)
  have beside := first 4 (by decide) (by decide)
  constructor
  case leftRule => exact first 1 (by decide) (by decide)
  case hardware => exact first 2 (by decide) (by decide)
  case rightRule => exact first 3 (by decide) (by decide)
  case memory => exact beside.within (.refl _) (side_within bounded 0 (by decide))
  case keypad => exact beside.within (.refl _) (side_within bounded 1 (by decide))
  case status => exact above.within (columns_within bounded 0 (by decide)) (.refl _)

/-- Caps that are counted in sixteen bits stay in the keypad. -/
theorem capsApart_of_addressable (bounded : area.Bounded)
    (addressable : KeyCap.Addressable (ofScreen area).keypad) : (ofScreen area).CapsApart :=
  fun _ drawn => (listingApart bounded).keypad.symm.within
    (KeyCap.within_of_mem_arrange addressable drawn) (.refl _)

end Layout

namespace Terminal

variable {M : Type} {t : Terminal} {w : Workbench M} {layout : Layout} {area : Rect} {height i : Nat}

/-! ## The row that is followed -/

/-- A row that is kept on the screen: the selected one while the listing has the focus, otherwise
the one that covers the place of execution. -/
def Keeps (t : Terminal) (w : Workbench M) (row : Row) : Prop :=
  match t.focus, w.cursor.selected with
  | .listing, some a => row.address = a
  | _, _ => row.covers w.cursor.current = true

/-- The row at position `i` is kept on the screen. -/
def Follows (t : Terminal) (w : Workbench M) (i : Nat) : Prop :=
  ∃ row, w.listing.rows[i]? = some row ∧ t.Keeps w row

theorem followed?_eq_some_iff (ordered : w.listing.Ordered) (starts : w.SelectedStarts) :
    followed? t.focus w.listing w.cursor = some i ↔ t.Follows w i := by
  have current := ordered.position?_eq_some_iff w.cursor.current (i := i)
  unfold followed? Follows Keeps
  cases t.focus with
  | memory => exact current
  | keypad => exact current
  | listing =>
    cases selected : w.cursor.selected with
    | none => exact current
    | some a =>
      -- the selected address is found, so the place of execution does not count
      obtain ⟨row, hrow, rfl⟩ := starts a selected
      obtain ⟨j, hj⟩ := Array.mem_iff_getElem?.1 hrow
      have found : w.listing.position? row.address = some j := ordered.position?_address hj
      have chosen : (if Focus.listing = Focus.listing then
          (some row.address).bind w.listing.position? <|> w.listing.position? w.cursor.current
          else w.listing.position? w.cursor.current) = some j := by
        simp [found]
      dsimp only
      rw [chosen, Option.some_inj]
      constructor
      · rintro rfl
        exact ⟨row, hj, rfl⟩
      · rintro ⟨row', hi, same⟩
        exact ordered.eq_of_address hj hi same.symm

/-! ## The window -/

theorem follow_shows {start height row : Nat} (h : 0 < height) :
    follow start height (some row) ≤ row ∧ row < follow start height (some row) + height := by
  unfold follow
  dsimp only
  split
  · omega
  · split <;> omega

/-- A window that shows the row stays where it is. -/
theorem follow_of_shown {start height row : Nat} (below : start ≤ row)
    (above : row < start + height) : follow start height (some row) = start := by
  unfold follow
  dsimp only
  rw [if_neg (by omega), if_neg (by omega)]

/-! ## Drawing -/

theorem nextStart_of_follows (ordered : w.listing.Ordered) (starts : w.SelectedStarts)
    (follows : t.Follows w i) (h : 1 ≤ height) :
    t.nextStart w.listing w.cursor height =
      follow (min t.start (w.listing.size - 1)) height (some i) := by
  unfold nextStart
  rw [(followed?_eq_some_iff ordered starts).2 follows, Nat.max_eq_left h]

theorem nextStart_of_not_follows (ordered : w.listing.Ordered) (starts : w.SelectedStarts)
    (idle : ∀ i, ¬ t.Follows w i) (height : Nat) :
    t.nextStart w.listing w.cursor height = min t.start (w.listing.size - 1) := by
  have none : followed? t.focus w.listing w.cursor = none :=
    Option.eq_none_iff_forall_ne_some.2 fun i found =>
      idle i ((followed?_eq_some_iff ordered starts).1 found)
  unfold nextStart
  rw [none]
  rfl

theorem rowLine_eq (ordered : w.listing.Ordered) {row : Row} (hi : w.listing.rows[i]? = some row)
    (line : Rect) :
    rowLine t.focus (w.listing.position? w.cursor.current) w.cursor.selected line i row =
      .line line
        (rowText row (row.covers w.cursor.current) (w.cursor.selected == some row.address))
        (rowStyle (row.covers w.cursor.current) (w.cursor.selected == some row.address)
          (t.focus == .listing)) := by
  have current : (w.listing.position? w.cursor.current == some i) =
      row.covers w.cursor.current := by
    rw [Bool.eq_iff_iff, beq_iff_eq, ordered.position?_eq_some_iff]
    constructor
    · rintro ⟨row', hi', covers⟩
      cases hi.symm.trans hi'
      exact covers
    · exact fun covers => ⟨row, hi, covers⟩
  unfold rowLine
  rw [current]

/-! ## Lines of the pane -/

section Canvases

variable [Canvas] [LawfulCanvas] {column k : Nat}

/-- The drawing of a line of the pane is that of the row as far down in the window. -/
theorem getElem?_listingLines (bounded : area.Bounded) (loaded : w.listing.isEmpty = false)
    (k : Nat) :
    (t.listingLines w.listing w.cursor area)[k]? =
      if k < area.height.toNat then
        w.listing.rows[t.start + k]?.map fun row =>
          rowLine t.focus (w.listing.position? w.cursor.current) w.cursor.selected
            (area.lineArea k) (t.start + k) row
      else none := by
  unfold listingLines
  rw [loaded, LawfulGeometry.lines_eq area bounded]
  simp only [Bool.false_eq_true, if_false, List.getElem?_zipWith, List.getElem?_map,
    List.getElem?_drop, List.getElem?_zipIdx, Array.getElem?_toList, Nat.zero_add]
  by_cases inside : k < area.height.toNat
  · rw [if_pos inside, List.getElem?_range inside]
    cases w.listing.rows[t.start + k]? <;> rfl
  · rw [if_neg inside, List.getElem?_eq_none (by simpa using inside)]
    rfl

/-- The other lines of the pane are drawn elsewhere. -/
theorem outside_of_getElem?_listingLines (bounded : area.Bounded)
    (loaded : w.listing.isEmpty = false) (hcolumn : column < area.width.toNat)
    (hk : k < area.height.toNat) {j : Nat} {d : Drawing}
    (hd : (t.listingLines w.listing w.cursor area)[j]? = some d) (other : j ≠ k) :
    Geometry.contains d.area (area.column column) (area.line k) = false := by
  rw [getElem?_listingLines bounded loaded] at hd
  split at hd
  · next hj =>
    obtain ⟨row, -, rfl⟩ := Option.map_eq_some_iff.1 hd
    exact Bool.eq_false_iff.2 fun inside =>
      other ((Rect.contains_lineArea_iff bounded hcolumn hk hj).1 inside)
  · cases hd

/-! ## Around the pane -/

theorem within_title (bounded : area.Bounded) {line : UInt16} (h : line < area.height) :
    (Geometry.rect area.x (area.y + line) area.width 1).Within area := by
  have below : line.toNat < area.height.toNat := h
  have same : area.line line.toNat = area.y + line := by
    rw [Rect.line, UInt16.ofNat_toNat]
  have top := Rect.line_toNat bounded below
  have last : (area.y + line).toNat + (1 : UInt16).toNat ≤ 0xFFFF := by
    have := bounded.bottom
    rw [← same, top]
    show _ + 1 ≤ _
    omega
  rw [LawfulGeometry.rect_eq, Coordinate.min_length bounded.right, Coordinate.min_length last,
    ← same]
  exact Rect.within_lineArea bounded below

/-- Whatever else is drawn is drawn outside of the listing. -/
theorem surroundings_outside (apart : layout.ListingApart) (bounded : layout.keypad.Bounded)
    (caps : ∀ cap ∈ t.caps, cap.area.Disjoint layout.listing) {x y : UInt16}
    (inside : Geometry.contains layout.listing x y = true) :
    ∀ d ∈ t.surroundings w layout, Geometry.contains d.area x y = false := by
  intro d hd
  simp only [surroundings, List.mem_append, List.mem_cons, List.not_mem_nil, or_false, or_assoc]
    at hd
  obtain rfl | rfl | rfl | rfl | titled | capped | rfl := hd
  · exact apart.leftRule.outside inside
  · exact apart.rightRule.outside inside
  · exact apart.hardware.outside inside
  · exact apart.memory.outside inside
  · obtain ⟨⟨text, line⟩, -, drawn⟩ := List.mem_filterMap.1 titled
    obtain ⟨below, same⟩ := Option.ite_none_right_eq_some.1 drawn
    cases same
    exact (apart.keypad.within (.refl _) (within_title bounded below)).outside inside
  · obtain ⟨cap, hcap, rfl⟩ := List.mem_map.1 capped
    exact (caps cap hcap).symm.outside inside
  · exact apart.status.outside inside

/-! ## The pane -/

/-- A line of the pane has the text of the row that is as far down in the window. -/
theorem cell_listingLines_of_row {screen : Rect} (bounded : area.Bounded)
    (visible : area.Within screen) (ordered : w.listing.Ordered) (loaded : w.listing.isEmpty = false)
    (hcolumn : column < area.width.toNat) (hk : k < area.height.toNat) {row : Row}
    (listed : row.Listed) (found : w.listing.rows[t.start + k]? = some row) :
    Canvas.cell screen (t.listingLines w.listing w.cursor area) (area.column column)
        (area.line k) =
      { Cell.blank.styled (rowStyle (row.covers w.cursor.current)
          (w.cursor.selected == some row.address) (t.focus == .listing)) with
        symbol := symbolAt (rowText row (row.covers w.cursor.current)
          (w.cursor.selected == some row.address)) column } := by
  have drawn := getElem?_listingLines (t := t) bounded loaded k
  rw [if_pos hk, found, Option.map_some, rowLine_eq ordered found] at drawn
  have shown := cell_of_only drawn (rowText_ne_empty listed.length_bounds.2 _ _)
    (plainText_rowText listed _ _) ((Rect.within_lineArea bounded hk).trans visible)
    ((Rect.contains_lineArea_iff bounded hcolumn hk hk).2 rfl) rfl
    fun j d hd other => outside_of_getElem?_listingLines bounded loaded hcolumn hk hd other
  have place : (area.column column - (area.lineArea k).x).toNat = column := Rect.column_sub hcolumn
  rw [shown, place]
  rfl

/-- Below the last row a line of the pane is blank. -/
theorem cell_listingLines_of_none {screen : Rect} (bounded : area.Bounded)
    (loaded : w.listing.isEmpty = false) (hcolumn : column < area.width.toNat)
    (hk : k < area.height.toNat) (below : w.listing.rows[t.start + k]? = none) :
    Canvas.cell screen (t.listingLines w.listing w.cursor area) (area.column column)
      (area.line k) = .blank := by
  refine cell_of_outside fun d hd => ?_
  obtain ⟨j, hj⟩ := List.mem_iff_getElem?.1 hd
  refine outside_of_getElem?_listingLines bounded loaded hcolumn hk hj ?_
  rintro rfl
  rw [getElem?_listingLines bounded loaded, if_pos hk, below] at hj
  cases hj

/-! ## Drawing and clicking -/

variable {width height : UInt16}

/-- In the area of the listing nothing but the listing is drawn. -/
theorem cell_draw (caps : (Layout.ofSize width height).CapsApart) {x y : UInt16}
    (inside : Geometry.contains (Layout.ofSize width height).listing x y = true) :
    (t.draw w width height).2.cell x y =
      Canvas.cell (Layout.screen width height)
        ((t.draw w width height).1.listingLines w.listing w.cursor
          (Layout.ofSize width height).listing) x y := by
  have bounded := Layout.bounded_screen width height
  exact cell_append_of_outside
    (surroundings_outside (t := t.arrange w (Layout.ofSize width height))
      (Layout.listingApart bounded) (bounded.within (Layout.keypad_within bounded)) caps inside)

omit [LawfulCanvas] in
theorem start_draw (t : Terminal) (width height : UInt16) (loaded : w.listing.isEmpty = false) :
    (t.draw w width height).1.start =
      t.nextStart w.listing w.cursor (Layout.ofSize width height).listing.height.toNat := by
  show (if w.listing.isEmpty then t.start else _) = _
  rw [loaded]
  rfl

omit [LawfulCanvas] in
/-- A click on the pane of the listing selects the row that is drawn there. -/
theorem clickCommands_of_inside {x y : UInt16} (noKey : KeyCap.at? t.caps x y = none)
    (inside : Geometry.contains t.listingArea x y = true) :
    (t.clickCommands w x y).2 =
      ((t.rowAt? w.listing y).map fun row => Command.selectRow row.address).toList := by
  unfold clickCommands
  rw [noKey, inside]
  dsimp only
  rw [if_pos rfl]
  cases t.rowAt? w.listing y <;> rfl

variable [Machine M]

omit [LawfulCanvas] in
/-- The memory window has nothing to do with the listing. -/
theorem listing_render (t : Terminal) (w : Workbench M) (width height : UInt16) :
    (t.render w width height).2.bench.listing = w.listing := by
  unfold render Workbench.resizeWindow
  dsimp only
  split
  · rfl
  · split <;> rfl

theorem commands_render (caps : (Layout.ofSize width height).CapsApart) {x y : UInt16}
    (inside : Geometry.contains (Layout.ofSize width height).listing x y = true) :
    ((t.render w width height).1.commands (t.render w width height).2.bench
        (.pointer (.down .left) x y)).2 =
      (w.listing.rows[(t.render w width height).1.start +
          (y.toNat - (Layout.ofSize width height).listing.y.toNat)]?.map
        fun row => Command.selectRow row.address).toList := by
  have noKey : KeyCap.at? (t.render w width height).1.caps x y = none :=
    KeyCap.at?_of_outside fun cap hcap => (caps cap hcap).symm.outside inside
  have line : (y - (Layout.ofSize width height).listing.y).toNat =
      y.toNat - (Layout.ofSize width height).listing.y.toNat := by
    refine UInt16.toNat_sub_of_le _ _ ?_
    exact ((LawfulGeometry.contains_iff _ x y).1 inside).2.1
  have clicked := clickCommands_of_inside (w := (t.render w width height).2.bench) noKey inside
  rw [← line]
  rw [rowAt?, listing_render] at clicked
  exact clicked

omit [LawfulCanvas] in
/-- A click on a row selects it. -/
theorem bench_handle_of_commands {e : Event} {row : Row}
    (asked : (t.commands w e).2 = [.selectRow row.address]) (mem : row ∈ w.listing.rows)
    (now : Nat) : (t.handle w now e).2.bench = w.withSelected row.address := by
  have accepted := Workbench.selectRow_of_mem mem
  unfold handle
  dsimp only
  rw [asked]
  simp only [applyAll, Workbench.apply, accepted]
  rfl

/-! ## Every session -/

/-- The listing of a workbench as `t` draws it into `area`, with what is remembered of it. -/
structure ShowsListing (t : Terminal) (w : Workbench M) (area : Rect)
    (drawn : Terminal × Outcome M Picture) : Prop where
  /-- A line shows the row that is as far down in the window as it is in the area. -/
  row : ∀ k < area.height.toNat, ∀ row, w.listing.rows[drawn.1.start + k]? = some row →
    ShowsRow row (row.covers w.cursor.current) (w.cursor.selected == some row.address)
      (t.focus == .listing) area.width.toNat
      fun column => drawn.2.result.cell (area.column column) (area.line k)
  /-- Below the last row there is nothing. -/
  blank : ∀ k < area.height.toNat, w.listing.rows[drawn.1.start + k]? = none →
    ∀ column < area.width.toNat,
      drawn.2.result.cell (area.column column) (area.line k) = .blank
  /-- The followed row is on the screen. -/
  follows : ∀ i, t.Follows w i →
    drawn.1.start ≤ i ∧ i < drawn.1.start + area.height.toNat
  /-- The window does not move if it has the followed row already. -/
  still : ∀ i, t.Follows w i → min t.start (w.listing.size - 1) ≤ i →
    i < min t.start (w.listing.size - 1) + area.height.toNat →
      drawn.1.start = min t.start (w.listing.size - 1)
  /-- Nor does it move if no row is followed. -/
  idle : (∀ i, ¬ t.Follows w i) → drawn.1.start = min t.start (w.listing.size - 1)
  /-- A click selects the row that is drawn there, if there is one. -/
  click : ∀ x y, Geometry.contains area x y = true →
    (drawn.1.commands drawn.2.bench (.pointer (.down .left) x y)).2 =
      (w.listing.rows[drawn.1.start + (y.toNat - area.y.toNat)]?.map fun row =>
        Command.selectRow row.address).toList
  /-- That row is selected then, and nothing else changes. -/
  picked : ∀ x y row now, Geometry.contains area x y = true →
    w.listing.rows[drawn.1.start + (y.toNat - area.y.toNat)]? = some row →
      (drawn.1.handle drawn.2.bench now (.pointer (.down .left) x y)).2.bench =
        drawn.2.bench.withSelected row.address

theorem showsListing_render {format : ImageFormat} (board : w.ListsBoard format)
    (starts : w.SelectedStarts) (loaded : w.listing.isEmpty = false)
    (visible : 1 ≤ (Layout.ofSize width height).listing.height.toNat)
    (caps : (Layout.ofSize width height).CapsApart) :
    t.ShowsListing w (Layout.ofSize width height).listing (t.render w width height) := by
  obtain ⟨-, ordered, listed⟩ := board
  have bounded := Layout.bounded_screen width height
  have onScreen := Layout.listing_within bounded
  have inScreen := bounded.within onScreen
  have start := start_draw t width height loaded
  constructor
  case row =>
    intro k hk row found
    refine showsRow_of_rowText (listed row (Array.mem_of_getElem? found)).length_bounds.2
      fun column hcolumn => ?_
    refine (cell_draw caps (Rect.contains_place inScreen hcolumn hk)).trans ?_
    exact cell_listingLines_of_row inScreen onScreen ordered loaded hcolumn hk
      (listed row (Array.mem_of_getElem? found)) found
  case blank =>
    intro k hk below column hcolumn
    refine (cell_draw caps (Rect.contains_place inScreen hcolumn hk)).trans ?_
    exact cell_listingLines_of_none inScreen loaded hcolumn hk below
  case follows =>
    intro i follows
    show (t.draw w width height).1.start ≤ i ∧ i < (t.draw w width height).1.start + _
    rw [start, nextStart_of_follows ordered starts follows visible]
    exact follow_shows visible
  case still =>
    intro i follows below above
    refine start.trans ?_
    rw [nextStart_of_follows ordered starts follows visible, follow_of_shown below above]
  case idle =>
    intro none
    exact start.trans (nextStart_of_not_follows ordered starts none _)
  case click => exact fun x y inside => commands_render caps inside
  case picked =>
    intro x y row now inside found
    refine bench_handle_of_commands ?_ ?_ now
    · rw [commands_render caps inside, found]
      rfl
    · rw [listing_render]
      exact Array.mem_of_getElem? found

omit [LawfulCanvas] in
/-- A listing that fits into its pane stays there from its first row on. -/
theorem ShowsListing.start_of_fits {drawn : Terminal × Outcome M Picture}
    (shows : t.ShowsListing w area drawn) (top : t.start = 0)
    (fits : w.listing.size ≤ area.height.toNat) : drawn.1.start = 0 := by
  have begin : min t.start (w.listing.size - 1) = 0 := by omega
  by_cases follows : ∃ i, t.Follows w i
  · obtain ⟨i, row, found, keeps⟩ := follows
    have inside : i < w.listing.size := (Array.getElem?_eq_some_iff.1 found).1
    rw [shows.still i ⟨row, found, keeps⟩ (by omega) (by omega), begin]
  · rw [shows.idle fun i follow => follows ⟨i, follow⟩, begin]

end Canvases

/-- **The pane of the listing follows, and a click hits the row that is drawn.**  After any script,
with a program loaded, on every canvas and every screen, whatever was on it before and whichever
pane has the focus: when the pane of the listing has a line or more and no key cap reaches into it,
its lines show the rows from the remembered beginning on, the followed row is among them, the window
moves for no other reason, and a click selects what is drawn under it. -/
theorem listing_after_new [Canvas] [LawfulCanvas] (d : Dsm51) (format : ImageFormat) (s : Settings)
    (script : Script) (t : Terminal) (width height : UInt16) :
    let w := (Workbench.new d (Dsm51.lister format) s).after script
    let layout := Layout.ofSize width height
    w.listing.isEmpty = false → 1 ≤ layout.listing.height.toNat → layout.CapsApart →
      t.ShowsListing w layout.listing (t.render w width height) := by
  intro w layout loaded visible caps
  have board : w.ListsBoard format := Workbench.listsBoard_after_new d format s script
  have starts : w.SelectedStarts := Workbench.selected_after_new d _ s script
  exact showsListing_render board starts loaded visible caps

theorem after_load (w : Workbench Dsm51) (file : List Byte) :
    w.after [(0, .command (.load file))] = (w.load file).bench := rfl

/-- Three rows on a screen of 105 columns and 30 lines: the second line shows the second row and a
click on it selects that row, and the fourth line is blank and a click on it selects nothing. -/
theorem listing_after_new_threeRows :
    let w := (Workbench.new (Dsm51.new .binary) (Dsm51.lister .binary) {}).after
      [(0, .command (.load threeRows))]
    let layout := Layout.ofSize 105 30
    let t : Terminal := {}
    let drawn := t.render w 105 30
    w.listing.isEmpty = false ∧ 1 ≤ layout.listing.height.toNat ∧ layout.CapsApart ∧
      t.ShowsListing w layout.listing drawn ∧
      (drawn.2.result.cell 19 1).symbol = "M" ∧
      (drawn.1.commands drawn.2.bench (.pointer (.down .left) 7 1)).2 = [.selectRow 1] ∧
      drawn.2.result.cell 7 3 = .blank ∧
      (drawn.1.commands drawn.2.bench (.pointer (.down .left) 7 3)).2 = [] := by
  intro w layout t drawn
  have listing : w.listing = .ofRows listingOfThree := by
    have bench : w = (Workbench.load _ threeRows).bench := after_load _ threeRows
    rw [bench]
    exact listing_load_threeRows _ rfl rfl
  have loaded : w.listing.isEmpty = false := by
    rw [listing]
    rfl
  have area : (Layout.ofSize 105 30).listing = ⟨0, 0, 42, 29⟩ := by decide
  have visible : 1 ≤ layout.listing.height.toNat := by
    rw [area]
    decide
  have caps : layout.CapsApart :=
    Layout.capsApart_of_addressable (Layout.bounded_screen 105 30) (by decide)
  have shows : t.ShowsListing w layout.listing drawn :=
    listing_after_new (Dsm51.new .binary) .binary {} [(0, .command (.load threeRows))] t 105 30
      loaded visible caps
  have start : drawn.1.start = 0 := by
    have fits : w.listing.size ≤ layout.listing.height.toNat := by
      rw [listing, area]
      decide
    have top : t.start = 0 := rfl
    exact shows.start_of_fits top fits
  have pane : t.ShowsListing w ⟨0, 0, 42, 29⟩ drawn := area ▸ shows
  have second : w.listing.rows[drawn.1.start + 1]? = some ⟨1, [0x74, 0x05], "MOV A, #5"⟩ := by
    rw [start, listing]
    rfl
  have fourth : w.listing.rows[drawn.1.start + 3]? = none := by
    rw [start, listing]
    rfl
  have text : (drawn.2.result.cell 19 1).symbol = "M" :=
    ((pane.row 1 (by decide) _ second).symbol_eq (i := 0) (c := 'M') (by decide) (by decide)
      rfl).trans (by decide)
  have blank : drawn.2.result.cell 7 3 = .blank := pane.blank 3 (by decide) fourth 7 (by decide)
  have select := pane.click 7 1 (by decide)
  have nothing := pane.click 7 3 (by decide)
  rw [show (1 : UInt16).toNat - (0 : UInt16).toNat = 1 from rfl, second] at select
  rw [show (3 : UInt16).toNat - (0 : UInt16).toNat = 3 from rfl, fourth] at nothing
  exact ⟨loaded, visible, caps, shows, text, select, blank, nothing⟩

end Terminal

end Trainer51
