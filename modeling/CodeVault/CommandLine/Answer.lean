import CodeVault.CommandLine.Inspection
import CodeVault.CommandLine.Request
import CodeVault.Config.Environment
import CodeVault.HostError
import CodeVault.Path

/-!
# Answers to requests

What a command line leads to: what is printed, and the number that the program ends with: 0 for a
request that was met, 1 for one that failed, 2 for a line that is not understood.

The host is asked for the value of a variable, the bytes of a file and the directory of the user
only; everything else is computed from them (`answer`).
-/

namespace CodeVault.CommandLine

/-- What is printed, and the number that the program ends with. -/
structure Answer where
  exitCode : Nat
  out : String
  err : String
  deriving DecidableEq, Repr

/-- What the host knows: values of variables, bytes of files, and the directory that its records
    give to the user. -/
structure Host where
  setting? : String → Option String
  read : String → Except HostError Bytes
  userDirectory? : Option String

namespace Answer

/-- A request that was met. -/
def success (out : String) : Answer := ⟨0, out, ""⟩

/-- A request that failed. -/
def failure (failure : Failure) : Answer := ⟨1, "", failure.text⟩

/-- The answer of an outcome. -/
def ofOutcome : Except Failure String → Answer
  | .ok out => success out
  | .error failure => .failure failure

end Answer

/-! ## 1. Inspecting and verifying containers -/

/-- Opens the container at a path. -/
def openContainer (host : Host) (path : String) : Except Failure Container :=
  orFailWith s!"failed to open container {path}" do
    match host.read path with
    | .ok bytes => Container.ofBytes bytes
    | .error cause => throw (.io path cause)

/-- The report of the container at a path. -/
def inspect (host : Host) (path : String) (json : Bool) : Except Failure String := do
  let container ← openContainer host path
  let report ← orFail (Inspection.ofContainer container)
  return if json then report.toJson.pretty 0 ++ "\n" else report.text path

/-- Checks that the name and the section descriptors of an entry can be read. -/
def verifyEntry (container : Container) (entry : Entry) : Except CacheError Unit := do
  let payload ← container.payload entry
  let _ ← Payload.peekName payload entry
  let _ ← Payload.peekSections payload entry

/-- The entries that are damaged, each by its place and the error. -/
def damaged (container : Container) (entries : List Entry) : List (Nat × CacheError) :=
  entries.zipIdx.filterMap fun (entry, place) =>
    match verifyEntry container entry with
    | .ok () => none
    | .error cause => some (place, cause)

/-- The line about a damaged entry. -/
def damageLine (damage : Nat × CacheError) : String :=
  s!"error entry {damage.1}: {damage.2.message}\n"

/-- The entries of a container whose tables can all be read and fit together. -/
def readTables (container : Container) : Except Failure (List Entry) := do
  let entries ← orFail container.entries
  let _ ← orFail container.strings
  let keys ← orFail container.searchKeys
  let preload ← orFail container.preloadIndices
  let _ ← orFailWith "search or preload table is inconsistent"
    (EntryIndex.ofLoaded entries.toArray keys.toArray preload.toArray)
  return entries

/-- The check of the container at a path: of its tables, and then of each entry. -/
def verify (host : Host) (path : String) : Answer :=
  match (do
      let container ← openContainer host path
      let entries ← readTables container
      return (container, entries) : Except Failure (Container × List Entry)) with
  | .error failure => .failure failure
  | .ok (container, entries) =>
    match damaged container entries with
    | [] => .success s!"ok {path} ({entries.length} entries)\n"
    | damages =>
      let failure : Failure := ⟨s!"{damages.length} of {entries.length} entries are damaged", []⟩
      { Answer.failure failure with out := String.join (damages.map damageLine) }

/-! ## 2. Showing the configuration -/

/-- The directory of the user: the one that a variable names, or the one of the records. -/
def home? (host : Host) : Option String :=
  (host.setting? "HOME").filter (· != "") <|> host.userDirectory?

/-- The directory of containers: the one that a variable names, or one in the user's directory. -/
def cacheRoot? (host : Host) : Option String :=
  match host.setting? "CODECACHE_DIR" with
  | some directory => some directory
  | none => (home? host).map fun home => String.ofList (Path.join home.toList ".codecache".toList)

/-- The variables that an answer may depend on. -/
def settingNames : List String := ["CODECACHE_DIR", "HOME"] ++ Config.settingNames

/-- The report of the configuration, and of where the container of an application would be. -/
def showConfig (host : Host) (app : Option String) : String :=
  let root := cacheRoot? host
  let container := do return Path.containerPath (← root) (← app)
  (Json.object [("cache_root", .optionalText root), ("default_container", .optionalText container),
    ("config", (Config.ofEnvironment host.setting?).toJson)]).pretty 0 ++ "\n"

/-! ## 3. All requests -/

/-- The path of the file that a command line needs. -/
def path? (arguments : List String) : Option String :=
  match request? arguments with
  | some (.run (.inspect path _)) | some (.run (.verify path)) => some path
  | _ => none

/-- The text that explains the command line. -/
def usage : String :=
  "Code cache container tool\n\n"
    ++ "Usage: codecache [-v]... inspect PATH [--json]\n"
    ++ "       codecache [-v]... verify PATH\n"
    ++ "       codecache [-v]... config [--app APP]\n"

/-- The answer to a command. -/
def Command.answer (host : Host) : Command → Answer
  | inspect path json => .ofOutcome (CommandLine.inspect host path json)
  | verify path => CommandLine.verify host path
  | showConfig app => .success (CommandLine.showConfig host app)

/-- The answer to a command line. -/
def answer (host : Host) (arguments : List String) : Answer :=
  match request? arguments with
  | none => ⟨2, "", usage⟩
  | some .help => .success usage
  | some .version => .success "codecache 0.1.0\n"
  | some (.run command) => command.answer host

end CodeVault.CommandLine
