import CodeVault.Config.Basic
import CodeVault.Config.Size

/-!
# Configuration from variables

A configuration is read from the variables `CODECACHE_*` of the environment. What cannot be read is
left as it is by default.
-/

namespace CodeVault.Config

/-- The truth value of a word, whatever its case and the white space around it. -/
def parseFlag? (value : String) : Option Bool :=
  let word := String.ofList ((trimBlanks value.toList).map Char.toLower)
  if word ∈ ["1", "true", "yes", "on"] then some true
  else if word ∈ ["0", "false", "no", "off"] then some false
  else none

/-- A path that is given and not empty. -/
def givenPath? (value : Option String) : Option String := value.filter (· != "")

/-- The variables that are looked at. -/
def settingNames : List String :=
  ["CODECACHE_LOAD", "CODECACHE_STORE", "CODECACHE_STRICT", "CODECACHE_SIZE", "CODECACHE_OFFLINE",
   "CODECACHE_PRELOAD"]

/-- The configuration that variables give. -/
def ofEnvironment (lookup : String → Option String) : Config :=
  { loadPath := givenPath? (lookup "CODECACHE_LOAD")
    storePath := givenPath? (lookup "CODECACHE_STORE")
    strict := ((lookup "CODECACHE_STRICT").bind parseFlag?).getD default.strict
    capacity := ((lookup "CODECACHE_SIZE").bind parseSize?).getD default.capacity
    offline := ((lookup "CODECACHE_OFFLINE").bind parseFlag?).getD default.offline
    preload := ((lookup "CODECACHE_PRELOAD").bind parseFlag?).getD default.preload }

end CodeVault.Config
