import CodeVault.Metadata

/-!
# Embedded values

The runtime values that generated code may hold as constants.
-/

namespace CodeVault

/-- The types that are no objects, whose mirrors code may hold. -/
inductive Primitive where
  | boolean
  | char
  | float
  | double
  | byte
  | short
  | int
  | long
  | void
  deriving DecidableEq, Repr

namespace Primitive

/-- Every primitive type, by its code. -/
def all : List Primitive := [.boolean, .char, .float, .double, .byte, .short, .int, .long, .void]

/-- The code of a primitive type in a container. -/
def code : Primitive → Nat
  | boolean => 4
  | char => 5
  | float => 6
  | double => 7
  | byte => 8
  | short => 9
  | int => 10
  | long => 11
  | void => 14

/-- The primitive type of a code. -/
def ofCode? (n : Nat) : Option Primitive := all.find? (·.code == n)

/-- The name of a primitive type in messages. -/
def name : Primitive → String
  | boolean => "Boolean"
  | char => "Char"
  | float => "Float"
  | double => "Double"
  | byte => "Byte"
  | short => "Short"
  | int => "Int"
  | long => "Long"
  | void => "Void"

theorem ofCode?_code (primitive : Primitive) : ofCode? primitive.code = some primitive := by
  cases primitive <;> rfl

theorem code_of_ofCode? {n : Nat} {primitive : Primitive} (h : ofCode? n = some primitive) :
    primitive.code = n := by
  simpa using List.find?_some h

end Primitive

/-- A value that code embeds, as the running process sees it; `noData` is a slot without a value. -/
inductive EmbeddedValue where
  | null
  | noData
  | type (handle : TypeHandle)
  | method (handle : MethodHandle)
  | string (handle : ObjectHandle)
  | primitive (primitive : Primitive)
  | systemLoader
  | platformLoader
  deriving DecidableEq, Repr

/-- An embedded value as messages show it: handles by their address, in decimal. -/
def EmbeddedValue.text : EmbeddedValue → String
  | null => "Null"
  | noData => "NoData"
  | type handle => s!"Type(TypeHandle({handle.address.toNat}))"
  | method handle => s!"Method(MethodHandle({handle.address.toNat}))"
  | string handle => s!"String(ObjectHandle({handle.address.toNat}))"
  | primitive p => s!"Primitive({p.name})"
  | systemLoader => "SystemLoader"
  | platformLoader => "PlatformLoader"

end CodeVault
