import Trainer51.Settings
import Trainer51.Settings.Toml

/-!
# Settings files

A settings file is a TOML document in UTF-8 with at most the known settings in it.
-/

namespace Trainer51

/-- Why a settings file cannot be used. -/
inductive SettingsError where
  /-- There is no such file, or it is not text. -/
  | unreadable
  /-- Its text does not describe settings. -/
  | malformed
  deriving DecidableEq, Repr

namespace Settings

/-- A number from zero up to a limit. -/
def natural? (limit : Nat) : Toml.Value → Option Nat
  | .integer n => if 0 ≤ n ∧ n ≤ limit then some n.toNat else none
  | _ => none

/-- A choice is its name, or a table whose only key is the name and has nothing in it. -/
def choice? : Toml.Value → Option KeyRelease
  | .text s => KeyRelease.ofName? s
  | .table _ [(name, .emptyList)] | .table _ [(name, .table _ [])] => KeyRelease.ofName? name
  | _ => none

/-- Take over one entry of a settings file; nothing if there is no such setting or value. -/
def set? (s : Settings) (name : String) (v : Toml.Value) : Option Settings :=
  match name with
  | "cadence_ms" => (natural? 0xFFFFFFFFFFFFFFFF v).map fun n => { s with cadence := some n }
  | "run_to_target_limit" =>
    (natural? 0xFFFFFFFFFFFFFFFF v).map fun n => { s with targetLimit := some n }
  | "key_release" => (choice? v).map fun k => { s with keyRelease := some k }
  | "memory_row_height" =>
    (natural? 0xFFFFFFFF v).map fun n => { s with rowHeight := some n }
  | "memory_viewport_extent" =>
    (natural? 0xFFFFFFFF v).map fun n => { s with extent := some n }
  | _ => none

/-- The settings that a document describes. -/
def ofDocument? (document : List Char) : Option Settings :=
  match Toml.read? document with
  | none => none
  | some entries =>
    entries.foldl (fun (s : Option Settings) (name, v) => s.bind (·.set? name v)) (some {})

/-- The settings in a file; `none` stands for a file that is not there. -/
def ofFile (file : Option (List Byte)) : Except SettingsError Settings :=
  match file.bind fun bytes => String.fromUTF8? ⟨bytes.toArray⟩ with
  | none => .error .unreadable
  | some text =>
    match ofDocument? text.toList with
    | some settings => .ok settings
    | none => .error .malformed

/-- The settings of the layers below the command line: the file in the working directory if it can
be used, the file named on the command line, then the environment. -/
def load (localFile : Option (List Byte)) (named : Option (Option (List Byte)))
    (lookup : String → Option String) : Except SettingsError Settings :=
  let base := ((ofFile localFile).toOption).getD {}
  match named with
  | none => .ok (base.merge (ofEnvironment lookup))
  | some file =>
    match ofFile file with
    | .ok settings => .ok ((base.merge settings).merge (ofEnvironment lookup))
    | .error e => .error e

end Settings

end Trainer51
