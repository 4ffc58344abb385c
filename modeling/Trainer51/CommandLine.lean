import Trainer51.Directory
import Trainer51.Dsm51
import Trainer51.Headless
import Trainer51.Settings.File

/-!
# The command line

What the program is asked to do, and everything it then says.  It works on files through
`FileAccess`; the variables of the environment come in as a function.
-/

namespace Trainer51

/-! ## Options -/

/-- What is written on the command line; what is not there is `none` or `false`. -/
structure CommandLine where
  image : Option String := none
  settings : Option String := none
  /-- Milliseconds between two ticks of a run. -/
  cadence : Option Nat := none
  headless : Bool := false
  /-- How many instructions a headless run executes at most. -/
  maxSteps : Option Nat := none
  trace : Bool := false
  /-- Where a session on a screen keeps its log. -/
  logFile : Option String := none
  binary : Bool := false
  sampleSettings : Bool := false
  deriving DecidableEq, Repr

namespace CommandLine

/-- An option that stands for itself. -/
inductive Switch where
  | headless | trace | binary | sampleSettings
  deriving DecidableEq, Repr

/-- An option that a value follows. -/
inductive Setting where
  | settings | cadence | maxSteps | logFile
  deriving DecidableEq, Repr

inductive Choice where
  | switch (s : Switch)
  | setting (s : Setting)
  deriving DecidableEq, Repr

/-- The option of a long name. -/
def ofWord? : String → Option Choice
  | "headless" => some (.switch .headless)
  | "trace" => some (.switch .trace)
  | "binary" => some (.switch .binary)
  | "sample-config" => some (.switch .sampleSettings)
  | "config" => some (.setting .settings)
  | "cadence-ms" => some (.setting .cadence)
  | "max-steps" => some (.setting .maxSteps)
  | "log-file" => some (.setting .logFile)
  | _ => none

/-- The option of a single letter. -/
def ofLetter? : Char → Option Choice
  | 't' => some (.switch .trace)
  | 'c' => some (.setting .settings)
  | 'm' => some (.setting .maxSteps)
  | _ => none

/-- Nothing is given twice. -/
def once {α : Type} (old : Option α) (new : α) : Option (Option α) :=
  if old.isSome then none else some (some new)

def switchOn (c : CommandLine) : Switch → Option CommandLine
  | .headless => if c.headless then none else some { c with headless := true }
  | .trace => if c.trace then none else some { c with trace := true }
  | .binary => if c.binary then none else some { c with binary := true }
  | .sampleSettings => if c.sampleSettings then none else some { c with sampleSettings := true }

/-- A file's name is not empty. -/
def fileName? (value : String) : Option String := if value.isEmpty then none else some value

def set (c : CommandLine) (value : String) : Setting → Option CommandLine
  | .settings => do return { c with settings := ← once c.settings (← fileName? value) }
  | .cadence => do return { c with cadence := ← once c.cadence (← decimal64? value) }
  | .maxSteps => do return { c with maxSteps := ← once c.maxSteps (← decimal64? value) }
  | .logFile => do return { c with logFile := ← once c.logFile (← fileName? value) }

def setImage (c : CommandLine) (value : String) : Option CommandLine := do
  return { c with image := ← once c.image (← fileName? value) }

/-- Whether an argument is a value rather than an option; a lone hyphen is one. -/
def isValue (argument : String) : Bool := argument == "-" || !argument.startsWith "-"

/-- What an argument leaves to be done. -/
inductive Pending where
  | nothing
  /-- The next argument is the value of a setting. -/
  | value (s : Setting)
  /-- The arguments that follow are no options. -/
  | onlyValues
  deriving DecidableEq, Repr

/-- Take the letters behind a hyphen: switches, then at most one setting, whose value is the rest or
the next argument. -/
def takeLetters (c : CommandLine) : List Char → Option (CommandLine × Pending)
  | [] => some (c, .nothing)
  | letter :: rest =>
    match ofLetter? letter with
    | some (.switch s) => (c.switchOn s).bind (takeLetters · rest)
    | some (.setting s) =>
      match rest with
      | [] => some (c, .value s)
      | '=' :: value | value => (c.set (String.ofList value) s).map (·, .nothing)
    | none => none

/-- Take a word behind two hyphens; a setting's value may follow an equals sign. -/
def takeWord (c : CommandLine) (word : List Char) : Option (CommandLine × Pending) :=
  let name := String.ofList (word.takeWhile (· ≠ '='))
  match ofWord? name, word.dropWhile (· ≠ '=') with
  | some (.switch s), [] => (c.switchOn s).map (·, .nothing)
  | some (.setting s), [] => some (c, .value s)
  | some (.setting s), _ :: value => (c.set (String.ofList value) s).map (·, .nothing)
  | _, _ => none

/-- Take one argument. -/
def take (c : CommandLine) (argument : String) : Pending → Option (CommandLine × Pending)
  | .value s => if isValue argument then (c.set argument s).map (·, .nothing) else none
  | .onlyValues => (c.setImage argument).map (·, .onlyValues)
  | .nothing =>
    if isValue argument then (c.setImage argument).map (·, .nothing)
    else
      match argument.toList with
      | ['-', '-'] => some (c, .onlyValues)
      | '-' :: '-' :: word => c.takeWord word
      | _ :: letters => c.takeLetters letters
      | [] => none

/-- The options in a list of arguments; `none` if they make no sense. -/
def ofArguments? (arguments : List String) : Option CommandLine :=
  let next (taken : Option (CommandLine × Pending)) (argument : String) :=
    taken.bind fun (c, pending) => c.take argument pending
  match arguments.foldl next (some ({}, .nothing)) with
  | some (_, .value _) | none => none
  | some (c, _) => some c

def defaultMaxSteps : Nat := 1000

def format (c : CommandLine) : ImageFormat := if c.binary then .binary else .auto

def defaultLogFile : String := "i8051emu.log"

end CommandLine

/-! ## What the program does -/

/-- What the program says and how it ends. -/
structure Report where
  code : Nat := 0
  /-- Lines on the standard output. -/
  output : List String := []
  /-- Messages on the standard error output. -/
  errors : List String := []
  deriving DecidableEq, Repr

/-- Why the program ends before any instruction is executed. -/
inductive StartError where
  | notCreated (file : String)
  | settings
  | unreadable (file : String)
  | noImage
  | notLoaded
  /-- There is no screen to work on. -/
  | noTerminal
  deriving DecidableEq, Repr

def StartError.message : StartError → String
  | notCreated file => "failed to create " ++ file
  | settings => "failed to load configuration"
  | unreadable file => "failed to read " ++ file
  | noImage => "headless mode needs an image"
  | notLoaded => "failed to load program"
  | noTerminal => "failed to open the terminal"

namespace CommandLine

variable {m : Type → Type} [Monad m] [FileAccess m]

/-- Start a new log, which only a session on a screen keeps.  A file that is there is emptied, even
one that is still to be read. -/
def startLog (c : CommandLine) : ExceptT StartError m Unit := do
  if !c.headless then
    let file := c.logFile.getD defaultLogFile
    if !(← FileAccess.clear file) then throw (.notCreated file)

/-- The settings of all layers; those on the command line come last. -/
def loadSettings (c : CommandLine) (lookup : String → Option String) :
    ExceptT StartError m Settings := do
  let localFile ← FileAccess.read? Settings.localFile
  let named ← c.settings.mapM fun file => FileAccess.read? file
  match Settings.load localFile named lookup with
  | .ok settings => return settings.merge { cadence := c.cadence }
  | .error _ => throw .settings

/-- The bytes of the image, if one is named. -/
def readImage (c : CommandLine) : ExceptT StartError m (Option (List Byte)) :=
  c.image.mapM fun file => do
    match ← FileAccess.read? file with
    | some bytes => return bytes
    | none => throw (.unreadable file)

/-- Step through the program that the command line names; the lines that this leaves. -/
def execute (c : CommandLine) (lookup : String → Option String) :
    ExceptT StartError m (List String) := do
  c.startLog
  let settings ← c.loadSettings lookup
  let image ← c.readImage
  if !c.headless then throw .noTerminal
  match image with
  | none => throw .noImage
  | some image =>
    let bench := Workbench.new (Dsm51.new c.format) (Dsm51.lister c.format) settings
    let o := bench.load image
    match o.result with
    | .ok () => return Headless.transcript o.bench (c.maxSteps.getD defaultMaxSteps) c.trace
    | .error _ => throw .notLoaded

/-- Do what the command line asks for. -/
def run (c : CommandLine) (lookup : String → Option String) : m Report := do
  if c.sampleSettings then return { output := Settings.sampleLines }
  match ← (c.execute lookup).run with
  | .ok lines => return { output := lines }
  | .error e => return { code := 1, errors := ["Error: " ++ e.message] }

def usage : String :=
  "usage: i8051emu [--headless] [-t] [-m N] [-c FILE] [--cadence-ms N] [--log-file FILE] "
    ++ "[--binary] [IMAGE]"

/-- The report on arguments that make no sense. -/
def misuse : Report := { code := 2, errors := [usage] }

end CommandLine

end Trainer51
