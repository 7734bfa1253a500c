import SubsetC.CommandLine

/-!
# The command

The outer layer of the command line: access to the files of the system, and the standard streams.
-/

namespace SubsetC

namespace Host

/-- The text as a string of the system. -/
def stringOf (text : Text) : String := (String.fromUTF8? ⟨text.toArray⟩).getD ""

/-- The number of an error of the system, which some operations give negated. -/
def errorNumber (code : UInt32) : UInt32 := if code < 0x80000000 then code else 0 - code

/-- The cause of an error of the system. -/
def causeOf : IO.Error → FileCause
  | .noFileOrDirectory .. => .notFound
  | .inappropriateType _ code _ => if errorNumber code = 20 then .notDirectory else .isDirectory
  | .invalidArgument _ code _ => if errorNumber code = 36 then .nameTooLong else .invalidPath
  | .permissionDenied .. => .other "permission denied"
  | error => .other (toString error)

/-- The content of a file. A directory can be opened, but not read. -/
def read (path : Text) : IO (Except FileError Text) := do
  try
    let bytes ← IO.FS.readBinFile (stringOf path)
    pure (.ok bytes.data.toList)
  catch error =>
    let cause := causeOf error
    pure (.error ⟨if cause = .isDirectory then "read" else "open", path, cause⟩)

/-- Writes a file. -/
def write (path content : Text) : IO (Except ReplaceError Unit) := do
  try
    IO.FS.writeBinFile (stringOf path) ⟨content.toArray⟩
    pure (.ok ())
  catch error => pure (.error (.write ⟨"open", path, causeOf error⟩))

/-- Writes a file while the lock on another one is held. -/
def replace (lock path content : Text) : IO (Except ReplaceError Unit) := do
  try
    let handle ← IO.FS.Handle.mk (stringOf lock) .append
    handle.lock
    let result ← write path content
    handle.unlock
    pure result
  catch error => pure (.error (.lock ⟨"open", lock, causeOf error⟩))

/-- Access to the files of the system. -/
def access : FileAccess IO := ⟨read, replace⟩

end Host

end SubsetC

/-- Runs the command with the arguments of the process. -/
def main (arguments : List String) : IO UInt32 := do
  let outcome ← SubsetC.CommandLine.run SubsetC.Host.access
    (arguments.map SubsetC.Text.ofString)
  (← IO.getStdout).write ⟨outcome.output.toArray⟩
  (← IO.getStderr).write ⟨outcome.errors.toArray⟩
  pure (UInt32.ofNat outcome.status)
