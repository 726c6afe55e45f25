import CodeVault.Artifact.Section
import CodeVault.Digest
import CodeVault.Entry.Basic

/-!
# Artifacts

An artifact is everything that a compiler hands over for one piece of code, and everything that a
later run gets back.

* its code is in three sections with their relocations; tables say what the code needs of a managed
  runtime;
* `patchExternalWords` writes the targets of external words into the code bytes themselves.
-/

namespace CodeVault

/-! ## 1. The parts of an artifact -/

/-- The size of the frame and the entry points into the code. -/
structure FrameLayout where
  frameSize : UInt32
  entryOffsets : List UInt32
  deriving DecidableEq, Repr

/-- Where references are while the code is at a place. -/
structure OopMap where
  pcOffset : UInt32
  slots : List UInt32
  deriving DecidableEq, Repr

/-- The debug information of a place in the code. -/
structure PcDescriptor where
  pcOffset : UInt32
  scopeOffset : Int32
  objOffset : Int32
  flags : UInt32
  deriving DecidableEq

/-- The handler of exceptions at a place in the code. -/
structure ExceptionHandler where
  pcOffset : UInt32
  handlerOffset : UInt32
  scopeDepth : UInt32
  deriving DecidableEq, Repr

/-- Where the code goes on when a null check that is part of an access fails. -/
structure NullCheck where
  execOffset : UInt32
  continuationOffset : UInt32
  deriving DecidableEq, Repr

/-- How the code was compiled; this is kept in the entry. -/
structure CompileInfo where
  level : UInt8
  compileId : UInt32
  decompile : UInt32
  inlinedBytecodes : UInt32
  forPreload : Bool
  initBarriers : Bool
  deriving DecidableEq, Repr

/-- One piece of generated code with all that belongs to it. `references` is the table of constants
    that relocations may point into; only compiled methods keep their dependencies. -/
structure Artifact where
  kind : EntryKind
  id : UInt32
  name : String
  sections : Sections CodeSection
  frame : FrameLayout
  oopMaps : List OopMap
  pcDescriptors : List PcDescriptor
  scopes : Bytes
  exceptionHandlers : List ExceptionHandler
  nullChecks : List NullCheck
  references : List EmbeddedValue
  dependencies : Bytes
  compile : CompileInfo
  deriving DecidableEq

namespace Artifact

/-- The number of code bytes in all sections. -/
def codeSize (artifact : Artifact) : Nat :=
  artifact.sections.consts.bytes.size + artifact.sections.insts.bytes.size
    + artifact.sections.stubs.bytes.size

end Artifact

/-! ## 2. External words -/

namespace CodeSection

/-- The section without code. -/
def empty (kind : SectionKind) : CodeSection := ⟨kind, 0, #[], 0, []⟩

/-- The target of a relocation, if it is an external word that was resolved to an address. -/
def externalTarget? (relocation : Relocation) : Option Address :=
  match relocation.kind, relocation.value with
  | .externalWord, .address target => some target
  | _, _ => none

/-- Writes the target of one relocation into the code bytes, if it is an external word whose eight
    bytes lie in the section. Answers the bytes and how many words were written so far. -/
def patchWord (state : Bytes × Nat) (relocation : Relocation) : Bytes × Nat :=
  match externalTarget? relocation with
  | none => state
  | some target =>
    if relocation.offset.toNat + 8 ≤ state.1.size then
      (state.1.overwrite relocation.offset.toNat (Bytes.ofU64 target), state.2 + 1)
    else state

/-- The section with all its external words written into the code, and how many there were. -/
def patchExternalWords (part : CodeSection) : CodeSection × Nat :=
  let (bytes, count) := part.relocations.foldl patchWord (part.bytes, 0)
  ({ part with bytes }, count)

end CodeSection

namespace Artifact

/-- The artifact with all its external words written into the code, and how many there were. -/
def patchExternalWords (artifact : Artifact) : Artifact × Nat :=
  let patched := artifact.sections.map CodeSection.patchExternalWords
  ({ artifact with sections := patched.map (·.1) },
   patched.consts.2 + patched.insts.2 + patched.stubs.2)

/-- The artifact of a compiled method, known by its full name. -/
def method (name : String) (level : UInt8) (decompile : UInt32) : Artifact :=
  { kind := .code
    id := contentId name
    name
    sections := Sections.kinds.map CodeSection.empty
    frame := ⟨0, []⟩
    oopMaps := []
    pcDescriptors := []
    scopes := #[]
    exceptionHandlers := []
    nullChecks := []
    references := []
    dependencies := #[]
    compile := ⟨level, 0, decompile, 0, false, false⟩ }

end Artifact

end CodeVault
