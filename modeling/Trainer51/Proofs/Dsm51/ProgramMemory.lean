import Trainer51.Dsm51
import Trainer51.Proofs.Listing.Lookup

/-!
# Listing, image and program memory agree

What a file says about program memory is kept three times: in the image, in the rows of the listing
and in the memory of the board that loads it.  All three have the same bytes at the same addresses.
-/

namespace Trainer51

/-! ## Programming -/

/-- A run is written byte by byte. -/
theorem writeAll_eq_foldl (code : Store64K Byte) (a : Word) (bytes : List Byte) :
    code.writeAll a bytes =
      (placeFrom a bytes).foldl (fun (code : Store64K Byte) e => code.write e.1 e.2) code := by
  induction bytes generalizing code a with
  | nil => rfl
  | cons b bytes ih => exact ih (code.write a b) (a + 1)

/-- So the runs of an image are written like its bytes, one after the other. -/
theorem programmed_eq_foldl (image : Image) :
    Dsm51.programmed image =
      image.toList.foldl (fun (code : Store64K Byte) e => code.write e.1 e.2)
        (Vector.replicate _ 0) := by
  rw [← runs_placed image.toList, List.foldl_flatMap]
  unfold Dsm51.programmed Image.runs
  congr
  funext code run
  exact writeAll_eq_foldl code run.start run.bytes

theorem read_foldl_of_not_mem {entries : List (Word × Byte)} {a : Word}
    (h : ∀ e ∈ entries, e.1 ≠ a) (code : Store64K Byte) :
    (entries.foldl (fun (code : Store64K Byte) e => code.write e.1 e.2) code).read a =
      code.read a := by
  induction entries generalizing code with
  | nil => rfl
  | cons e entries ih =>
    obtain ⟨other, rest⟩ := List.forall_mem_cons.1 h
    rw [List.foldl_cons, ih rest, Store64K.read_write, if_neg other]

/-- Every address is written at most once, so it keeps what is written there. -/
theorem read_foldl_of_mem {entries : List (Word × Byte)} (ascending : entries.Pairwise (·.1 < ·.1))
    {a : Word} {b : Byte} (h : (a, b) ∈ entries) (code : Store64K Byte) :
    (entries.foldl (fun (code : Store64K Byte) e => code.write e.1 e.2) code).read a = b := by
  induction entries generalizing code with
  | nil => cases h
  | cons e entries ih =>
    obtain ⟨above, ascending⟩ := List.pairwise_cons.1 ascending
    rw [List.foldl_cons]
    obtain rfl | later := List.mem_cons.1 h
    · have once : ∀ e ∈ entries, e.1 ≠ a := fun e he => (UInt16.ne_of_lt (above e he)).symm
      rw [read_foldl_of_not_mem once, Store64K.read_write, if_pos rfl]
    · exact ih ascending later _

/-- Cleared and filled run by run, program memory is the image, zero where it says nothing. -/
theorem Dsm51.programmed_eq (image : Image) : programmed image = image.memory := by
  refine Store64K.ext_read fun a => ?_
  rw [programmed_eq_foldl, image.read_memory]
  cases found : image.get? a with
  | some b => exact read_foldl_of_mem image.pairwise_toList ((image.mem_toList a b).2 found) _
  | none =>
    have unwritten : ∀ e ∈ image.toList, e.1 ≠ a := by
      rintro ⟨a', b⟩ he rfl
      rw [(image.mem_toList a' b).1 he] at found
      cases found
    rw [read_foldl_of_not_mem unwritten, Store64K.read_replicate]
    rfl

/-! ## Lemmas -/

theorem Dsm51.lister_of_parse {format : ImageFormat} {file : List Byte} {image : Image}
    (h : Image.parse format file = .ok image) : Dsm51.lister format file = .ok image.rows := by
  simp only [Dsm51.lister, h]

theorem Dsm51.parse_of_lister {format : ImageFormat} {file : List Byte} {rows : List Row}
    (h : Dsm51.lister format file = .ok rows) :
    ∃ image, Image.parse format file = .ok image ∧ rows = image.rows := by
  unfold Dsm51.lister at h
  split at h
  · next image parsed =>
    cases h
    exact ⟨image, parsed, rfl⟩
  · cases h
  · cases h

theorem Dsm51.load_of_parse {d : Dsm51} {file : List Byte} {image : Image}
    (h : Image.parse d.format file = .ok image) :
    Machine.load d file = ({ d with code := image.memory }, .ok ()) := by
  show (d.load file).map id (Except.mapError MachineError.ofImage ·) = _
  simp only [Dsm51.load, h, Dsm51.programmed_eq]
  rfl

/-! ## The three accounts -/

/-- How the listing, the image and the program memory of a board agree on a file. -/
structure Agreement (format : ImageFormat) (file : List Byte) (image : Image) (rows : List Row) :
    Prop where
  listed : Dsm51.lister format file = .ok rows
  /-- Row after row the listing has the bytes of the image. -/
  tile : rows.flatMap Row.placed = image.toList
  ascending : image.toList.Pairwise (·.1 < ·.1)
  /-- The bytes of the image are those at its addresses. -/
  cells : ∀ a b, (a, b) ∈ image.toList ↔ image.get? a = some b
  size : ∀ row ∈ rows, 1 ≤ row.bytes.length ∧ row.bytes.length ≤ 3
  loads : ∀ d : Dsm51, d.format = format → (Machine.load d file).2 = .ok ()
  /-- A board that loads the file has the bytes of the image, and zero elsewhere. -/
  memory : ∀ d : Dsm51, d.format = format →
    ∀ a, (Machine.load d file).1.code.read a = (image.get? a).getD 0
  /-- An address falls on a row just when the image has a byte there. -/
  covered : ∀ a, ((Listing.ofRows rows).covering? a).isSome ↔ (image.get? a).isSome
  /-- The row that is found for an address is the only one that contains it. -/
  covering : ∀ a row, (Listing.ofRows rows).covering? a = some row →
    rows.filter (·.covers a) = [row] ∧ ∃ b, (a, b) ∈ row.placed
  /-- The rows that are found by their address are those that start there. -/
  index : ∀ a, ((Listing.ofRows rows).index? a).isSome ↔ ∃ row ∈ rows, row.address = a

/-- **Listing, image and program memory agree** for every file that is accepted. -/
theorem listing_image_memory_agree (format : ImageFormat) (file : List Byte) (image : Image)
    (h : Image.parse format file = .ok image) : ∃ rows, Agreement format file image rows := by
  refine ⟨image.rows, ?_⟩
  constructor
  case listed => exact Dsm51.lister_of_parse h
  case tile => exact image.rows_placed
  case ascending => exact image.pairwise_toList
  case cells => exact image.mem_toList
  case size => exact fun row hr => (image.rows_listed row hr).length_bounds
  case loads =>
    rintro d rfl
    rw [Dsm51.load_of_parse h]
  case memory =>
    rintro d rfl
    rw [Dsm51.load_of_parse h]
    exact image.read_memory
  case covered => exact image.covering?_isSome_iff
  case covering =>
    intro a row hrow
    obtain ⟨hr, hc⟩ := (Listing.covering?_eq_some_iff image.rows_before a row).1 hrow
    refine ⟨?_, (image.covers_row_iff hr a).1 hc⟩
    rw [Listing.filter_covers image.rows_before, hrow]
    rfl
  case index => exact Listing.index?_isSome_iff image.rows

/-- A file with two runs, of which the end of memory cuts the second short. -/
theorem listing_image_memory_agree_two_runs :
    let file := ":0100000000FF\n:01FFFF0002FF\n".toUTF8.data.toList
    let image := (Image.empty.write 0 [0x00]).write 0xFFFF [0x02]
    Image.parse .intelHex file = .ok image ∧ ∃ rows, Agreement .intelHex file image rows :=
  ⟨rfl, listing_image_memory_agree _ _ _ rfl⟩

end Trainer51
