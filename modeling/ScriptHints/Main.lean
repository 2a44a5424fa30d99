import ScriptHints.Command.Run

/-!
# The command line program

Connects the command to the files and streams of the machine it runs on.
-/

namespace ScriptHints.Command

/-- The reason named by an error number. Some calls of the system give it with its sign changed. -/
def FileError.ofNumber (number : UInt32) (details : String) : FileError :=
  match min number.toNat (-number).toNat with
  | 2 => .notFound
  | 20 => .notDirectory
  | 21 => .isDirectory
  | 28 => .noSpace
  | 36 => .nameTooLong
  | n => .other s!"{details} (os error {n})"

/-- The reason for a failed operation on a file. -/
def FileError.ofSystem : IO.Error → FileError
  | .noFileOrDirectory .. => .notFound
  | .resourceExhausted _ number details
  | .inappropriateType _ number details
  | .invalidArgument _ number details
  | .permissionDenied _ number details
  | .otherError number details => .ofNumber number details
  | e => .other (toString e)

/-- Runs an operation on a file, turning a failure into a value. -/
def attempt {α : Type} (act : IO α) : IO (Except FileError α) := do
  try
    return .ok (← act)
  catch e =>
    return .error (FileError.ofSystem e)

/-- Writes to an open file or stream. -/
def writeTo (put : String → IO Unit) : Writer IO := fun text => do
  match ← attempt (put text) with
  | .ok () => pure ()
  | .error e => throw e.message

/-- The machine the program runs on. -/
def machine : Host IO where
  read name := attempt (IO.FS.readBinFile name)
  create name := attempt do
    let handle ← IO.FS.Handle.mk name .write
    return writeTo fun text => do
      handle.putStr text
      handle.flush
  print := writeTo fun text => do
    let out ← IO.getStdout
    out.putStr text
  complain := IO.eprintln

end ScriptHints.Command

/-- Runs the command on the machine. -/
def main (arguments : List String) : IO UInt32 := do
  let code ← ScriptHints.Command.runCommand ScriptHints.Command.machine arguments
  if code = 2 then
    IO.eprint ScriptHints.Command.helpText
  return code
