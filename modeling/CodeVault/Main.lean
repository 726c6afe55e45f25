import CodeVault.CommandLine.Answer
import CodeVault.CommandLine.User

/-!
# The program

The one module that talks to the host: it fetches the variables, the records and the file that the
command line needs, and prints the answer.
-/

namespace CodeVault.Main

/-- The host's error behind an error of the system. -/
def hostError : IO.Error → HostError
  | .noFileOrDirectory .. => .notFound
  | .permissionDenied .. => .permissionDenied
  | .inappropriateType _ code _ => if code = 21 then .noDevice else .notDirectory
  | .invalidArgument _ 36 _ => .nameTooLong
  | error => .other (toString error)

/-- The bytes of a file. A device cannot be mapped. -/
def readFile (path : String) : IO (Except HostError Bytes) := do
  try
    if (← (IO.FS.DirEntry.mk path "").root.metadata).type == .other then return .error .noDevice
    return .ok (← IO.FS.readBinFile path).data
  catch error => return .error (hostError error)

/-- The variables that are set, with their values. -/
def setVariables : List String → IO (List (String × String))
  | [] => return []
  | name :: rest => do
    let others ← setVariables rest
    match ← IO.getEnv name with
    | some value => return (name, value) :: others
    | none => return others

/-- The directory that the records of the host give to the user. -/
def userDirectory? : IO (Option String) := do
  try
    let status ← IO.FS.readFile "/proc/self/status"
    let table ← IO.FS.readFile "/etc/passwd"
    return (CommandLine.userNumber? status).bind (CommandLine.userDirectory? table)
  catch _ => return none

end CodeVault.Main

open CodeVault CodeVault.Main in
/-- Answers a command line. -/
def main (arguments : List String) : IO UInt32 := do
  let values ← setVariables CommandLine.settingNames
  let content ← match CommandLine.path? arguments with
    | some path => readFile path
    | none => pure (.error .notFound)
  let host : CommandLine.Host :=
    ⟨fun name => values.lookup name, fun _ => content, ← userDirectory?⟩
  let answer := CommandLine.answer host arguments
  IO.print answer.out
  IO.eprint answer.err
  return answer.exitCode.toUInt32
