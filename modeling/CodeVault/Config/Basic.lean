import CodeVault.Json.Basic
import CodeVault.Text.Quoted

/-!
# Configuration

What a cache is asked to do: reuse code of one container, write another, or both, and how strictly.
-/

namespace CodeVault

/-- The policy of a cache: where to load from and where to store to, whether failures stop the
    process, how much may be written, whether code is made without running the application, and
    whether the preload table of a container is honoured. -/
structure Config where
  loadPath : Option String
  storePath : Option String
  strict : Bool
  capacity : Nat
  offline : Bool
  preload : Bool
  deriving DecidableEq, Repr

namespace Config

/-- The capacity when none is given, 16 MiB. -/
def defaultCapacity : Nat := 16 * 1024 * 1024

/-- The policy when nothing is given. -/
def default : Config := ⟨none, none, false, defaultCapacity, false, true⟩

/-- Whether there is anything to do. -/
def isEnabled (config : Config) : Bool := config.loadPath.isSome || config.storePath.isSome

/-- A configuration as a report. -/
def toJson (config : Config) : Json :=
  .object [("load_path", .optionalText config.loadPath),
    ("store_path", .optionalText config.storePath), ("strict", .bool config.strict),
    ("capacity", .number config.capacity), ("offline", .bool config.offline),
    ("preload", .bool config.preload)]

/-- A path, or its absence, as messages show it. -/
def pathText : Option String → String
  | none => "None"
  | some path => s!"Some({quoted path})"

/-- A configuration as messages show it. -/
def text (config : Config) : String :=
  "CacheConfig \x7b load_path: " ++ pathText config.loadPath
    ++ s!", store_path: {pathText config.storePath}, strict: {config.strict}"
    ++ s!", capacity: {config.capacity}, offline: {config.offline}, preload: {config.preload}"
    ++ " \x7d"

end Config

end CodeVault
