import CodeVault.Arena
import CodeVault.Cursor

/-!
# References

A reference stands for an embedded value in code that outlives its process.

* types, methods and strings are named by what a resolver says of them, or, when they are part of
  the base image, by a number that means the same wherever this image is mapped;
* a reference is written as a tag and what the tag calls for. Reading accepts only what writing
  produces.
-/

namespace CodeVault

/-! ## 1. References -/

/-- A type by its name and loader. -/
structure TypeDescriptor where
  name : String
  loader : Loader
  deriving DecidableEq, Repr

/-- A method by its holder, name and signature. -/
structure MethodDescriptor where
  holder : TypeDescriptor
  name : String
  signature : String
  deriving DecidableEq, Repr

/-- What stands for an embedded value. -/
inductive Reference where
  | noData
  | null
  | type (descriptor : TypeDescriptor)
  | method (descriptor : MethodDescriptor)
  | string (text : String)
  | primitive (primitive : Primitive)
  | systemLoader
  | platformLoader
  | sharedType (distance : UInt32)
  | sharedMethod (distance : UInt32)
  | sharedString (index : UInt32)
  deriving DecidableEq, Repr

/-! ## 2. Writing -/

/-- Writes a type: its loader, then its name. -/
def TypeDescriptor.write (type : TypeDescriptor) : Writing Unit := do
  let _ ← Arena.writeU32 (UInt32.ofNat type.loader.code)
  let _ ← Arena.writeString type.name

namespace Reference

/-- The tag that a reference starts with. -/
def tag : Reference → Int
  | noData => -1
  | null => 0
  | type _ => 1
  | method _ => 2
  | string _ => 3
  | primitive _ => 4
  | systemLoader => 7
  | platformLoader => 8
  | sharedType _ => 9
  | sharedMethod _ => 10
  | sharedString _ => 11

/-- Writes what comes after the tag. -/
def writeBody : Reference → Writing Unit
  | noData | null | systemLoader | platformLoader => return
  | type descriptor => descriptor.write
  | method descriptor => do
    descriptor.holder.write
    let _ ← Arena.writeString descriptor.name
    let _ ← Arena.writeString descriptor.signature
  | string text => do
    let _ ← Arena.writeString text
  | primitive p => do
    let _ ← Arena.writeU8 (UInt8.ofNat p.code)
  | sharedType n | sharedMethod n | sharedString n => do
    let _ ← Arena.writeU32 n

/-- Writes a reference. -/
def write (reference : Reference) : Writing Unit := do
  let _ ← Arena.writeI32 (Int32.ofInt reference.tag)
  reference.writeBody

/-! ## 3. Reading -/

/-- Reads a type. -/
def readType : Reading TypeDescriptor := do
  let raw ← Cursor.readU32
  let some loader := Loader.ofCode? raw.toNat | Cursor.corrupt (.unknownLoader raw)
  let name ← Cursor.readString
  return ⟨name, loader⟩

/-- Reads what comes after a tag. -/
def readBody (tag : Int) : Reading Reference :=
  match tag with
  | -1 => return noData
  | 0 => return null
  | 1 => return type (← readType)
  | 2 => do
    let holder ← readType
    let name ← Cursor.readString
    let signature ← Cursor.readString
    return method ⟨holder, name, signature⟩
  | 3 => return string (← Cursor.readString)
  | 4 => do
    let raw ← Cursor.readU8
    let some p := Primitive.ofCode? raw.toNat | Cursor.corrupt (.unknownPrimitive raw)
    return primitive p
  | 7 => return systemLoader
  | 8 => return platformLoader
  | 9 => return sharedType (← Cursor.readU32)
  | 10 => return sharedMethod (← Cursor.readU32)
  | 11 => return sharedString (← Cursor.readU32)
  | _ => Cursor.corrupt (.unknownReferenceTag tag)

/-- Reads a reference. -/
def read : Reading Reference := do
  let tag ← Cursor.readI32
  readBody tag.toInt

end Reference

end CodeVault
