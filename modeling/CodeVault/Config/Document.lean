import CodeVault.Address
import CodeVault.Config.Basic
import CodeVault.Json.Document

/-!
# Configuration from JSON

A configuration is read from an object whose members may come in any order, or from an array of
values in the order of the fields. What is missing is as it is by default; unknown members are
ignored; a field that is given twice, or with a value of the wrong sort, is refused, and so is a
name that stands for nothing.
-/

namespace CodeVault.Config

/-- The fields, in their order. -/
def fieldNames : List String :=
  ["load_path", "store_path", "strict", "capacity", "offline", "preload"]

/-- A path, or null. -/
def readPath? : Document → Option (Option String)
  | .null => some none
  | .text (some path) => some (some path)
  | _ => none

/-- A truth value. -/
def readBool? : Document → Option Bool
  | .bool value => some value
  | _ => none

/-- A number of 64 bits. -/
def readNumber? : Document → Option Nat
  | .unsigned value => if value < addressSpace then some value else none
  | _ => none

/-- The configuration with one field given. -/
def readField? (config : Config) (name : String) (value : Document) : Option Config :=
  match name with
  | "load_path" => (readPath? value).map fun loadPath => { config with loadPath }
  | "store_path" => (readPath? value).map fun storePath => { config with storePath }
  | "strict" => (readBool? value).map fun strict => { config with strict }
  | "capacity" => (readNumber? value).map fun capacity => { config with capacity }
  | "offline" => (readBool? value).map fun offline => { config with offline }
  | "preload" => (readBool? value).map fun preload => { config with preload }
  | _ => some config

/-- Whether a name occurs more than once among the members. -/
def occursTwice (members : List (String × Document)) (name : String) : Bool :=
  1 < members.countP (·.1 == name)

/-- The configuration of a document. -/
def ofDocument? : Document → Option Config
  | .object members => do
    let members ← members.mapM fun (name, value) => name.map (·, value)
    if fieldNames.any (occursTwice members) then none
    else members.foldlM (fun config (name, value) => config.readField? name value) default
  | .array items =>
    if fieldNames.length < items.length then none
    else (fieldNames.zip items).foldlM (fun config (name, value) => config.readField? name value)
      default
  | _ => none

/-- The configuration of a JSON text. -/
def parse? (input : String) : Option Config := do ofDocument? (← Document.parse? input)

end CodeVault.Config
