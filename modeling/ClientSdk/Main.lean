import ClientSdk.Program

/-!
# The Command

The program on the files and streams of the operating system.
-/

namespace ClientSdk

/-- Computations on the operating system that know how much is to be reported. -/
abbrev Console := ReaderT Nat IO

namespace Console

/-- Tells whether an action succeeds. -/
def attempt (action : IO Unit) : Console Bool := fun _ => do
  try
    action
    return true
  catch _ => return false

/-- The contents of a file, if they can be read. -/
def contents? (path : String) : Console (Option ByteArray) := fun _ => do
  try
    return some (← IO.FS.readBinFile path)
  catch _ => return none

instance : Host Console where
  read := contents?
  createDirectories path := attempt (IO.FS.createDirAll path)
  write path content := attempt (IO.FS.writeFile path content)
  rename source target := attempt (IO.FS.rename source target)
  print text := liftM (IO.print text)
  report line := liftM (IO.eprintln line)
  note event := do
    if event.verbosity ≤ (← read) then IO.eprintln event.describe

end Console

/-- How much the arguments ask to be reported. -/
def verbosityOf (args : List String) : Nat :=
  match CommandLine.parse args with
  | .ok options => options.verbosity
  | .error _ => 0

end ClientSdk

/-- The program, as it is started from a shell. -/
def main (args : List String) : IO UInt32 := do
  let outcome ← (ClientSdk.program args : ClientSdk.Console ClientSdk.Outcome).run
    (ClientSdk.verbosityOf args)
  return outcome.exitCode.toUInt32
