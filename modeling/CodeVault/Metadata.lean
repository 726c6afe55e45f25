import CodeVault.Address

/-!
# Metadata of the running process

Code embeds types, methods and strings of the process that runs it. A resolver describes such an
entity by its name, and finds the entity of a name again, perhaps in another process.
-/

namespace CodeVault

/-- A live type. -/
structure TypeHandle where
  address : Address
  deriving DecidableEq, Repr

/-- A live method. -/
structure MethodHandle where
  address : Address
  deriving DecidableEq, Repr

/-- A live object; here always a string. -/
structure ObjectHandle where
  address : Address
  deriving DecidableEq, Repr

/-- Who defined a type. -/
inductive Loader where
  | boot
  | platform
  | app
  | custom
  deriving DecidableEq, Repr

namespace Loader

/-- Every loader, by its code. -/
def all : List Loader := [.boot, .platform, .app, .custom]

/-- The code of a loader in a container. -/
def code : Loader → Nat
  | boot => 0
  | platform => 1
  | app => 2
  | custom => 3

/-- The loader of a code. -/
def ofCode? (n : Nat) : Option Loader := all.find? (·.code == n)

/-- The name of a loader. -/
def name : Loader → String
  | boot => "Boot"
  | platform => "Platform"
  | app => "App"
  | custom => "Custom"

/-- Whether the loader is there in every process and finds the same type by the same name. -/
def isBuiltin : Loader → Bool
  | custom => false
  | _ => true

theorem ofCode?_code (loader : Loader) : ofCode? loader.code = some loader := by
  cases loader <;> rfl

theorem code_of_ofCode? {n : Nat} {loader : Loader} (h : ofCode? n = some loader) :
    loader.code = n := by
  simpa using List.find?_some h

end Loader

/-- How far a type has come. -/
inductive TypeState where
  | allocated
  | loaded
  | linked
  | initialized
  deriving DecidableEq, Repr

namespace TypeState

/-- Every state, in order. -/
def all : List TypeState := [.allocated, .loaded, .linked, .initialized]

/-- The name of a state. -/
def name : TypeState → String
  | allocated => "Allocated"
  | loaded => "Loaded"
  | linked => "Linked"
  | initialized => "Initialized"

/-- Whether code may refer to a type in this state. -/
def isLinked : TypeState → Bool
  | linked | initialized => true
  | _ => false

end TypeState

/-- What a resolver says of a type. -/
structure TypeInfo where
  name : String
  loader : Loader
  state : TypeState
  hidden : Bool
  deriving DecidableEq, Repr

/-- What a resolver says of a method. -/
structure MethodInfo where
  holder : TypeHandle
  name : String
  signature : String
  deriving DecidableEq, Repr

/-- The metadata of one process: descriptions of live entities, and the entities of descriptions. -/
structure Resolver where
  describeType : TypeHandle → Option TypeInfo
  describeMethod : MethodHandle → Option MethodInfo
  describeString : ObjectHandle → Option String
  findType : String → Loader → Option TypeHandle
  findMethod : TypeHandle → String → String → Option MethodHandle
  internString : String → Option ObjectHandle

end CodeVault
