/-!
# Errors of the host

What the host answers when a file cannot be opened, mapped or replaced.
-/

namespace CodeVault

/-- Why the host refuses; `other` carries what else it may say. -/
inductive HostError where
  | notFound
  | permissionDenied
  | exists
  | noDevice
  | busy
  | notDirectory
  | isDirectory
  | invalidArgument
  | nameTooLong
  | nulInName
  | other (text : String)
  deriving DecidableEq, Repr

/-- The wording of the host, with the number of the error if it has one. -/
def HostError.message : HostError → String
  | notFound => "No such file or directory (os error 2)"
  | permissionDenied => "Permission denied (os error 13)"
  | busy => "Device or resource busy (os error 16)"
  | .exists => "File exists (os error 17)"
  | noDevice => "No such device (os error 19)"
  | notDirectory => "Not a directory (os error 20)"
  | isDirectory => "Is a directory (os error 21)"
  | invalidArgument => "Invalid argument (os error 22)"
  | nameTooLong => "File name too long (os error 36)"
  | nulInName => "file name contained an unexpected NUL byte"
  | other text => text

end CodeVault
