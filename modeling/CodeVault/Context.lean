import CodeVault.BaseImage
import CodeVault.Error
import CodeVault.Fault
import CodeVault.Reference
import CodeVault.Symbol.Table

/-!
# Carrying values between processes

A process is known by its symbols, its base image and its resolver. In the context of one artifact,
which may be meant for installation before its first call, an embedded value becomes a reference
(`encodeValue`), and a reference becomes a value again, perhaps in another process (`decodeValue`).

* both fail only because of an entity (`LookupFailure`), or, going back, because a distance into the
  base image leads out of the 64-bit range;
* only types that are not hidden are named, and for preload code only those that builtin loaders
  define (`checkType`).
-/

namespace CodeVault

/-- What a cache uses of the process it lives in. -/
structure LiveProcess where
  symbols : SymbolTable
  image : BaseImage
  resolver : Resolver

/-- A process, and whether the artifact at hand is installed before its first call. -/
structure Context where
  process : LiveProcess
  forPreload : Bool

namespace Context

/-! ## 1. Types by name -/

/-- Refuses a type that may not be named. -/
def checkType (context : Context) (info : TypeInfo) : Except LookupFailure Unit :=
  if info.hidden then .error (.hidden info.name)
  else if context.forPreload && !info.loader.isBuiltin then .error (.nonBuiltinLoader info.name)
  else .ok ()

/-- The name of a type. -/
def describeType (context : Context) (type : TypeHandle) : Except LookupFailure TypeDescriptor :=
  match context.process.resolver.describeType type with
  | none => .error (.undescribable .type)
  | some info => do
    context.checkType info
    return ⟨info.name, info.loader⟩

/-- The type of a name, which must have been linked. -/
def resolveType (context : Context) (type : TypeDescriptor) : Except LookupFailure TypeHandle :=
  match context.process.resolver.findType type.name type.loader with
  | none => .error (.notLoaded type.name)
  | some handle =>
    match context.process.resolver.describeType handle with
    | none => .error (.notLoaded type.name)
    | some info => do
      context.checkType info
      if info.state.isLinked then return handle else throw (.notLinked type.name)

/-! ## 2. Values to references -/

/-- The reference of a method outside the base image. -/
def describeMethod (context : Context) (method : MethodHandle) : Except LookupFailure Reference :=
  match context.process.resolver.describeMethod method with
  | none => .error (.undescribable .method)
  | some info => do
    let holder ← context.describeType info.holder
    return .method ⟨holder, info.name, info.signature⟩

/-- The reference of a string that is not archived. -/
def describeString (context : Context) (string : ObjectHandle) : Except LookupFailure Reference :=
  match context.process.resolver.describeString string with
  | none => .error (.undescribable .string)
  | some text => .ok (.string text)

/-- The reference that stands for a value. -/
def encodeValue (context : Context) : EmbeddedValue → Except LookupFailure Reference
  | .null => .ok .null
  | .noData => .ok .noData
  | .primitive p => .ok (.primitive p)
  | .systemLoader => .ok .systemLoader
  | .platformLoader => .ok .platformLoader
  | .type handle =>
    match context.process.image.distance? handle.address with
    | some distance => .ok (.sharedType distance)
    | none => (context.describeType handle).map .type
  | .method handle =>
    match context.process.image.distance? handle.address with
    | some distance => .ok (.sharedMethod distance)
    | none => context.describeMethod handle
  | .string handle =>
    match context.process.image.stringIndex? handle with
    | some index =>
      if context.process.image.isMapped then .ok (.sharedString index)
      else context.describeString handle
    | none => context.describeString handle

/-! ## 3. References to values -/

/-- The address at a distance into the base image. -/
def sharedAddress (context : Context) (distance : UInt32) :
    Except (Fault LookupFailure) Address :=
  if context.process.image.isMapped then orOverflow (context.process.image.pointer? distance)
  else .error (.error .baseImageUnavailable)

/-- The method of a name. -/
def resolveMethod (context : Context) (method : MethodDescriptor) :
    Except LookupFailure EmbeddedValue := do
  let holder ← context.resolveType method.holder
  match context.process.resolver.findMethod holder method.name method.signature with
  | some found => return .method found
  | none => throw (.methodNotFound method.holder.name method.name method.signature)

/-- The archived string at an index. -/
def sharedString (context : Context) (index : UInt32) : Except LookupFailure EmbeddedValue :=
  if context.process.image.isMapped then
    match context.process.image.stringAt? index with
    | some string => .ok (.string string)
    | none => .error (.sharedStringMissing index)
  else .error .baseImageUnavailable

/-- The string with a text. -/
def internString (context : Context) (text : String) : Except LookupFailure EmbeddedValue :=
  match context.process.resolver.internString text with
  | some string => .ok (.string string)
  | none => .error (.stringUnavailable text)

/-- The value that a reference stands for in this process. -/
def decodeValue (context : Context) : Reference → Except (Fault LookupFailure) EmbeddedValue
  | .null => .ok .null
  | .noData => .ok .noData
  | .primitive p => .ok (.primitive p)
  | .systemLoader => .ok .systemLoader
  | .platformLoader => .ok .platformLoader
  | .sharedType distance => (context.sharedAddress distance).map fun addr => .type ⟨addr⟩
  | .sharedMethod distance => (context.sharedAddress distance).map fun addr => .method ⟨addr⟩
  | .sharedString index => liftError (fun e => e) (context.sharedString index)
  | .type type => liftError (fun e => e) ((context.resolveType type).map .type)
  | .method method => liftError (fun e => e) (context.resolveMethod method)
  | .string text => liftError (fun e => e) (context.internString text)

/-- A context as reports show it. -/
def text (context : Context) : String :=
  "CodecContext \x7b symbols: " ++ context.process.symbols.phase.name
    ++ s!", image_mapped: {context.process.image.isMapped}, for_preload: {context.forPreload}"
    ++ ", .. \x7d"

end Context

end CodeVault
