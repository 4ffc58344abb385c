import Trainer51.CommandLine

/-!
# The program

Does what the command line asks for, on the files of the system, and prints the report.
-/

namespace Trainer51.Program

instance : FileAccess IO where
  read? file := do
    try return some (← IO.FS.readBinFile file).toList
    catch _ => return none
  clear file := do
    try
      IO.FS.writeBinFile file .empty
      return true
    catch _ => return false

/-- Do what the arguments ask for. -/
def report (arguments : List String) : IO Report := do
  match CommandLine.ofArguments? arguments with
  | none => return CommandLine.misuse
  | some c =>
    let known ← Settings.variableNames.mapM fun name => return (name, ← IO.getEnv name)
    c.run fun name => (known.lookup name).join

end Trainer51.Program

def main (arguments : List String) : IO UInt32 := do
  let r ← Trainer51.Program.report arguments
  for line in r.output do IO.println line
  for message in r.errors do IO.eprintln message
  return r.code.toUInt32
