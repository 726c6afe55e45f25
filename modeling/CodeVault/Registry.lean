import CodeVault.Metadata

/-!
# Registries

A registry is the metadata of a process as lists. Where several things in a list fit, the first
counts.

* a type that was unloaded is still found by its name, but nothing at its address is described any
  more.
-/

namespace CodeVault

/-- A type that was registered, at the address of its handle. -/
structure RegisteredType where
  handle : TypeHandle
  info : TypeInfo
  unloaded : Bool
  deriving DecidableEq, Repr

/-- The types, methods and strings of a process. -/
structure Registry where
  types : List RegisteredType
  methods : List (MethodHandle × MethodInfo)
  strings : List (ObjectHandle × String)
  deriving DecidableEq, Repr

namespace Registry

/-- What is said of a type. -/
def describeType (registry : Registry) (handle : TypeHandle) : Option TypeInfo :=
  let there := registry.types.filter (·.handle == handle)
  if there.any (·.unloaded) then none else there.head?.map (·.info)

/-- The first type with a name and a loader. -/
def findType (registry : Registry) (name : String) (loader : Loader) : Option TypeHandle :=
  (registry.types.find? fun type => type.info.name == name && type.info.loader == loader).map
    (·.handle)

/-- The first method of a holder with a name and a signature. -/
def findMethod (registry : Registry) (holder : TypeHandle) (name signature : String) :
    Option MethodHandle :=
  (registry.methods.find? (·.2 == ⟨holder, name, signature⟩)).map (·.1)

/-- The first string with a text. -/
def internString (registry : Registry) (text : String) : Option ObjectHandle :=
  (registry.strings.find? (·.2 == text)).map (·.1)

/-- The resolver that answers from the lists. -/
def resolver (registry : Registry) : Resolver where
  describeType := registry.describeType
  describeMethod := fun handle => registry.methods.lookup handle
  describeString := fun handle => registry.strings.lookup handle
  findType := registry.findType
  findMethod := registry.findMethod
  internString := registry.internString

end Registry

end CodeVault
