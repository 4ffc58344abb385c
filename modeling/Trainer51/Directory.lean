import Trainer51.Byte

/-!
# The working directory

The files that a run of the program reads and creates: those of its working directory, which is one
of the directories for temporary files, and a few devices.  A path is followed step by step from
directory to directory; what it does not lead to is not there.

    a cleared file is empty                                       (read?_clear?)
    no other file changes                                         (read?_clear?_of_ne)
-/

namespace Trainer51

/-! ## Paths -/

/-- The directories that a path can pass through. -/
inductive Place where
  | root
  /-- Where the devices are. -/
  | devices
  /-- Where the working directory is, among others. -/
  | temporary
  | working
  deriving DecidableEq, Repr

/-- Where a path leads. -/
inductive Location where
  /-- A file of the working directory, or of the one above it. -/
  | file (place : Place) (name : String)
  /-- Nothing is read from a device, and nothing that is written to it is kept. -/
  | device
  deriving DecidableEq, Repr

namespace Place

/-- The directory above; above the root there is none but the root. -/
def above : Place → Place
  | working => temporary
  | _ => root

/-- The directory that a step leads to. -/
def enter? (place : Place) (step : String) : Option Place :=
  match place, step with
  | _, "" | _, "." => some place
  | _, ".." => some place.above
  | root, "dev" => some devices
  | root, "tmp" => some temporary
  | _, _ => none

def deviceNames : List String := ["null", "zero", "full", "stdin", "stdout", "stderr"]

/-- A name has at most this many bytes. -/
def longestName : Nat := 255

/-- What has a name in a directory that is not a directory itself. -/
def find? (place : Place) (name : String) : Option Location :=
  if (place.enter? name).isSome || longestName < name.utf8ByteSize then none
  else
    match place with
    | root => none
    | devices => if deviceNames.contains name then some .device else none
    | temporary | working => some (.file place name)

/-- Where the steps of a path lead, from a directory on. -/
def follow? (place : Place) : List String → Option Location
  | [] => none
  | [name] => place.find? name
  | step :: steps => (place.enter? step).bind (follow? · steps)

end Place

/-- A path has at most this many bytes. -/
def Location.longestPath : Nat := 4095

/-- Where a path leads; `none` for a directory, and for a path that leads nowhere. -/
def Location.ofPath? (path : String) : Option Location :=
  if path.isEmpty || longestPath < path.utf8ByteSize then none
  else (if path.startsWith "/" then Place.root else Place.working).follow? (path.splitOn "/")

/-! ## Files -/

/-- Files by their place; of two at one place the first counts. -/
structure Directory where
  files : List (Location × List Byte)
  deriving DecidableEq, Repr

namespace Directory

/-- The files of the working directory, by their names. -/
def ofFiles (files : List (String × List Byte)) : Directory :=
  ⟨files.map fun (name, bytes) => (.file .working name, bytes)⟩

/-- The bytes of a file, if there is one. -/
def read? (d : Directory) (path : String) : Option (List Byte) :=
  match Location.ofPath? path with
  | some .device => some []
  | some location => d.files.lookup location
  | none => none

/-- Leave a file empty, a new one if there is none; `none` if the path leads to no file. -/
def clear? (d : Directory) (path : String) : Option Directory :=
  match Location.ofPath? path with
  | some .device => some d
  | some location => some ⟨(location, []) :: d.files⟩
  | none => none

end Directory

/-! ## Access -/

/-- What a run of the program asks of the files around it. -/
class FileAccess (m : Type → Type) where
  /-- The bytes of a file, if it can be read. -/
  read? : String → m (Option (List Byte))
  /-- Leave a file empty, a new one if there is none; whether that could be done. -/
  clear : String → m Bool

instance : FileAccess (StateM Directory) where
  read? path d := (d.read? path, d)
  clear path d :=
    match d.clear? path with
    | some cleared => (true, cleared)
    | none => (false, d)

/-- A failure leaves the files as they are then. -/
instance {ε : Type} {m : Type → Type} [Monad m] [FileAccess m] : FileAccess (ExceptT ε m) where
  read? path := ExceptT.lift (FileAccess.read? path)
  clear path := ExceptT.lift (FileAccess.clear path)

/-! ## Lemmas -/

namespace Directory

variable {d cleared : Directory} {path other : String}

theorem read?_clear? (h : d.clear? path = some cleared) : cleared.read? path = some [] := by
  unfold clear? at h
  unfold read?
  split at h
  · rfl
  · simp only [Option.some.injEq] at h
    subst h
    simp
  · simp at h

theorem read?_clear?_of_ne (h : d.clear? path = some cleared)
    (hne : Location.ofPath? other ≠ Location.ofPath? path) :
    cleared.read? other = d.read? other := by
  unfold clear? at h
  unfold read?
  split at h
  · simp only [Option.some.injEq] at h
    rw [h]
  · rename_i location _ hp
    simp only [Option.some.injEq] at h
    subst h
    split
    · rfl
    · rename_i found _ ho
      have : (found == location) = false := by simpa [ho, hp] using hne
      simp [List.lookup_cons, this]
    · rfl
  · simp at h

end Directory

end Trainer51
