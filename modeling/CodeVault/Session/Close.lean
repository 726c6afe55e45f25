import CodeVault.Session.Basic

/-!
# Closing a session

At the end of a run the surviving entries of both populations are put into a new container, which
takes the place of the file at the store path. Nothing is written when nothing survives, when the
session was not open for writing, or when it was disabled.
-/

namespace CodeVault.Session

/-- The bytes of the container that a run leaves, if any entry survives. -/
def finalImage (session : Session) (arena : Arena) (strings : List CText) (now : UInt64) :
    Except CacheError (Option Bytes) := do
  let image := (session.container.map (·.bytes)).getD #[]
  let merged ← session.index.merge image arena.bytes
  if merged.entries.isEmpty then return none
  return some (← Container.build strings merged session.fingerprint now)

/-- Puts a container in place of the file at a path, in a directory that is made if it is
    missing. -/
def persist (path : String) (image : Bytes) (files : FileStore) :
    Except CacheError Unit × FileStore :=
  let directory := match Path.parent? path.toList with
    | some [] | none => "."
    | some parent => String.ofList parent
  match FileStore.makeDirectories directory files with
  | .error cause files => (.error (.io directory cause), files)
  | .ok () files =>
    match files.replace path image with
    | .error cause => (.error (.io path cause), files)
    | .ok files => (.ok (), files)

/-- Writes the container that a run leaves, and answers its path. -/
def finalize (session : Session) (arena : Arena) (symbols : SymbolTable) (now : UInt64)
    (files : FileStore) : Except CacheError (Option String) × FileStore :=
  match session.config.storePath with
  | none => (.ok none, files)
  | some path =>
    match session.finalImage arena symbols.strings.texts now with
    | .error cause => (.error cause, files)
    | .ok none => (.ok none, files)
    | .ok (some image) =>
      match persist path image files with
      | (.ok (), files) => (.ok (some path), files)
      | (.error cause, files) => (.error cause, files)

/-- Writes the container that a run leaves, if the session was open for writing and is not
    disabled. -/
def leave (session : Session) (symbols : SymbolTable) (now : UInt64) (files : FileStore) :
    Except CacheError (Option String) × FileStore :=
  match session.arena with
  | none => (.ok none, files)
  | some arena => if session.failed then (.ok none, files)
      else session.finalize arena symbols now files

/-- What closing works on. -/
structure Closing where
  session : Session
  files : FileStore

/-- Ends the use of the container, and writes the new one if the session was open for writing.
    Answers the path that was written. A session that is closed stays so. -/
def close (symbols : SymbolTable) (now : UInt64) : EStateM Stop Closing (Option String) :=
  fun { session, files } =>
    if session.state = .closed then .ok none ⟨session, files⟩
    else
      let after := { session with container := none, arena := none, state := .closed }
      let (result, files) := session.leave symbols now files
      match result with
      | .ok path => .ok path ⟨after, files⟩
      | .error cause =>
        match report .finalizing cause after with
        | .ok () after => .error (.error cause) ⟨after, files⟩
        | .error stop after => .error stop ⟨after, files⟩

/-- Gives a session up, which closes it; an error has nobody to be answered to. -/
def drop (symbols : SymbolTable) (now : UInt64) : EStateM Stop Closing Unit := fun closing =>
  match close symbols now closing with
  | .ok _ closing => .ok () closing
  | .error (.error _) closing => .ok () closing
  | .error stop closing => .error stop closing

end CodeVault.Session
