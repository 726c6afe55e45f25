import CodeVault.Error

/-!
# Failures of commands

A command that fails says what it could not do and then, one below the other, what lies behind it.
-/

namespace CodeVault.CommandLine

/-- What a command could not do, and what lies behind it, the nearest first. -/
structure Failure where
  summary : String
  causes : List String
  deriving DecidableEq, Repr

namespace Failure

/-- A failure with an error of the cache. -/
def ofError (error : CacheError) : Failure := ⟨error.message, error.cause?.toList⟩

/-- A failure as the reason of another one. -/
def behind (summary : String) (failure : Failure) : Failure :=
  ⟨summary, failure.summary :: failure.causes⟩

/-- A text with another beginning of its first line, and of the lines that follow. -/
def indented (first next text : String) : String :=
  first ++ ("\n" ++ next).intercalate (text.splitOn "\n")

/-- One of several causes, with its number. -/
def numbered (cause : String × Nat) : String :=
  let number := toString cause.2
  let blanks := String.ofList (List.replicate (5 - number.length) ' ')
  indented (blanks ++ number ++ ": ") "       " cause.1

/-- The causes, each on lines of its own: several are numbered. -/
def causeLines (failure : Failure) : List String :=
  match failure.causes with
  | [cause] => [indented "    " "    " cause]
  | causes => causes.zipIdx.map numbered

/-- A failure as it is printed. -/
def text (failure : Failure) : String :=
  let behind := if failure.causes.isEmpty then ""
    else "\n\nCaused by:\n" ++ "\n".intercalate failure.causeLines
  s!"Error: {failure.summary}" ++ behind ++ "\n"

end Failure

/-- An outcome whose error is a failure. -/
def orFail {α : Type} : Except CacheError α → Except Failure α
  | .ok a => .ok a
  | .error e => .error (.ofError e)

/-- An outcome whose error is the reason of a failure. -/
def orFailWith {α : Type} (summary : String) : Except CacheError α → Except Failure α
  | .ok a => .ok a
  | .error e => .error (.behind summary (.ofError e))

end CodeVault.CommandLine
