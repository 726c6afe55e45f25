import CodeVault.Artifact.Section
import CodeVault.Entry.Basic
import CodeVault.Fingerprint.Basic
import CodeVault.HostError
import CodeVault.Symbol.Error
import CodeVault.Text.Utf8

/-!
# Errors

Each constructor is one cause, and `message` is its wording.

* `LookupFailure`: an embedded entity cannot be carried from one process to another;
* `Malformation`: the artifact to be written is not one;
* `Corruption`: bytes do not hold what they should;
* `LayoutFault`: tables of a container do not fit together;
* `CacheError` is any of these or a condition of the cache as a whole; `severity` says how far it
  reaches.
-/

namespace CodeVault

/-! ## 1. Entities that cannot be carried -/

/-- The sorts of entities that a process describes. -/
inductive Entity where
  | type
  | method
  | string
  deriving DecidableEq, Repr

/-- The name of a sort of entities. -/
def Entity.name : Entity → String
  | type => "type"
  | method => "method"
  | string => "string"

/-- Why an embedded entity cannot be carried from one process to another. -/
inductive LookupFailure where
  | notLoaded (type : String)
  | notLinked (type : String)
  | hidden (type : String)
  | nonBuiltinLoader (type : String)
  | methodNotFound (holder name signature : String)
  | stringUnavailable (text : String)
  | sharedStringMissing (index : UInt32)
  | baseImageUnavailable
  | undescribable (entity : Entity)
  deriving DecidableEq, Repr

/-- The wording of a failed look-up. -/
def LookupFailure.message : LookupFailure → String
  | notLoaded type => s!"type `{type}` is not loaded"
  | notLinked type => s!"type `{type}` is not linked"
  | hidden type => s!"type `{type}` is hidden"
  | nonBuiltinLoader type => s!"type `{type}` is defined by a non-builtin loader"
  | methodNotFound holder name signature => s!"method `{holder}.{name}{signature}` not found"
  | stringUnavailable text => s!"string `{text}` is unavailable"
  | sharedStringMissing index => s!"shared string #{index} is not in the base image"
  | baseImageUnavailable => "base image is not mapped"
  | undescribable entity => s!"runtime cannot describe {entity.name}"

/-! ## 2. Artifacts that are none -/

/-- The parts of an artifact whose length has to fit a word. -/
inductive Part where
  | offset
  | name
  | code
  | sectionBytes
  | referenceTable
  | entryPoints
  | oopMaps
  | oopMapSlots
  | pcDescriptors
  | scopeStream
  | exceptionTable
  | nullCheckTable
  | dependencies
  deriving DecidableEq, Repr

/-- The name of a part in messages. -/
def Part.label : Part → String
  | offset => "artifact offset"
  | name => "name"
  | code => "code"
  | sectionBytes => "section"
  | referenceTable => "reference table"
  | entryPoints => "entry points"
  | oopMaps => "oop maps"
  | oopMapSlots => "oop map slots"
  | pcDescriptors => "pc descriptors"
  | scopeStream => "scope stream"
  | exceptionTable => "exception table"
  | nullCheckTable => "null check table"
  | dependencies => "dependencies"

/-- Why an artifact cannot be written at all. -/
inductive Malformation where
  | withoutKind
  | nulInName (name : String)
  | longString (size : Nat)
  | tooLong (part : Part) (length : Nat)
  | sectionSlot (found expected : SectionKind)
  | tooManyRelocations
  | relocationOutside (kind : RelocationKind) (offset : UInt32) (sectionSize : Nat)
  | operand (kind : RelocationKind) (offset : UInt32) (value : RelocationValue)
  deriving DecidableEq, Repr

/-- The wording of a malformation. -/
def Malformation.message : Malformation → String
  | withoutKind => "artifact without a kind"
  | nulInName name => s!"name `{name}` contains a nul byte"
  | longString size => s!"string of {size} bytes"
  | tooLong part length => s!"{part.label} of {length} exceeds u32"
  | sectionSlot found expected => s!"{found.name} section in the {expected.name} slot"
  | tooManyRelocations => "too many relocations"
  | relocationOutside kind offset sectionSize =>
    s!"{kind.name} relocation at {offset} outside {sectionSize} byte section"
  | operand kind offset value => s!"{kind.name} relocation at {offset} cannot carry {value.text}"

/-! ## 3. Bytes that do not hold what they should -/

/-- How bytes fail to hold what is read from them. -/
inductive Corruption where
  | shortRead (size pos length : Nat)
  | shortMappedRead (size offset length : Nat)
  | seekPastEnd (pos length : Nat)
  | patchPastEnd (pos : Nat)
  | countPastEnd (count pos remaining : Nat)
  | unterminated (pos : Nat)
  | notText (fault : Utf8.Fault)
  | unknownEntryKind (raw : UInt32)
  | compilationLevel (raw : UInt32)
  | unknownCollector (raw : UInt32)
  | unknownLoader (raw : UInt32)
  | unknownPrimitive (raw : UInt8)
  | unknownReferenceTag (tag : Int)
  | unknownRelocationKind (raw : UInt8)
  | relocationOutside (offset : UInt32) (sectionSize : Nat)
  | recordedOutside (index : UInt32) (count : Nat)
  | sectionExpected (raw : UInt32) (expected : SectionKind)
  | sectionEnd (kind : SectionKind) (id : UInt32) (finish payloadSize : Nat)
  | sectionStart (kind : SectionKind) (id offset : UInt32) (expected : Nat)
  | codeSize (id : UInt32) (total : Nat) (declared : UInt32)
  | nameSize (id : UInt32) (found : Nat) (declared : UInt32)
  | payloadOutside (id : UInt32) (start : Nat) (size : UInt32) (sourceSize : Nat)
  | missingEntry (id : EntryId)
  deriving DecidableEq, Repr

/-- The wording of a corruption. -/
def Corruption.message : Corruption → String
  | shortRead size pos length => s!"read of {size} bytes at {pos} exceeds {length}"
  | shortMappedRead size offset length =>
    s!"read of {size} bytes at {offset} exceeds mapped size {length}"
  | seekPastEnd pos length => s!"seek to {pos} past end {length}"
  | patchPastEnd pos => s!"patch at {pos} past write cursor"
  | countPastEnd count pos remaining =>
    s!"count {count} at {pos} exceeds remaining {remaining} bytes"
  | unterminated pos => s!"unterminated string at {pos}"
  | notText fault => s!"string: {fault.message}"
  | unknownEntryKind raw => s!"unknown entry kind {raw}"
  | compilationLevel raw => s!"compilation level {raw}"
  | unknownCollector raw => s!"unknown collector {raw}"
  | unknownLoader raw => s!"unknown loader kind {raw}"
  | unknownPrimitive raw => s!"unknown primitive type {raw}"
  | unknownReferenceTag tag => s!"unknown reference tag {tag}"
  | unknownRelocationKind raw => s!"unknown relocation kind {raw}"
  | relocationOutside offset sectionSize =>
    s!"relocation at {offset} outside {sectionSize} byte section"
  | recordedOutside index count => s!"relocation references entry {index} of {count}"
  | sectionExpected raw expected =>
    s!"section descriptor {raw} where {expected.name} was expected"
  | sectionEnd kind id finish payloadSize =>
    s!"{kind.name} section of entry {id} ends at {finish}, payload is {payloadSize} bytes"
  | sectionStart kind id offset expected =>
    s!"{kind.name} section of entry {id} at {offset}, expected {expected}"
  | codeSize id total declared =>
    s!"entry {id} sections hold {total} bytes, descriptor says {declared}"
  | nameSize id found declared => s!"entry {id} name is {found} bytes, descriptor says {declared}"
  | payloadOutside id start size sourceSize =>
    s!"entry {id} payload [{start}, +{size}) outside source of {sourceSize} bytes"
  | missingEntry id => s!"no entry for {id.text}"

/-! ## 4. Tables that do not fit together -/

/-- The tables whose place a header gives with a count. -/
inductive TableName where
  | entry
  | search
  | preload
  deriving DecidableEq, Repr

/-- The name of a table in messages. -/
def TableName.text : TableName → String
  | entry => "entry"
  | search => "search"
  | preload => "preload"

/-- How the tables of a container fail to fit together, or do not fit its 32-bit places. -/
inductive LayoutFault where
  | rowCount (rows entries : Nat)
  | unsorted (row : Nat)
  | rowWithoutEntry (index : UInt32)
  | rowDisagrees (id index entryId : UInt32)
  | preloadIndex (index : UInt32) (entries : Nat)
  | payloadOffset (offset : Nat)
  | containerOffset (offset : Nat)
  | arenaOffset (offset : Nat)
  | artifactSize (size : Nat)
  | tooManyEntries
  | tableOutside (table : TableName) (start finish size : Nat)
  | stringsOutside (start size : Nat)
  | kindCounts (total declared : Nat)
  deriving DecidableEq, Repr

/-- The wording of a layout fault. -/
def LayoutFault.message : LayoutFault → String
  | rowCount rows entries => s!"search table has {rows} rows for {entries} entries"
  | unsorted row => s!"search table unsorted at row {row}"
  | rowWithoutEntry index => s!"search row points at missing entry {index}"
  | rowDisagrees id index entryId =>
    s!"search row id {id} disagrees with entry {index} id {entryId}"
  | preloadIndex index entries => s!"preload index {index} past {entries} entries"
  | payloadOffset offset => s!"payload offset {offset} exceeds u32"
  | containerOffset offset => s!"container offset {offset} exceeds u32"
  | arenaOffset offset => s!"arena offset {offset}"
  | artifactSize size => s!"artifact of {size} bytes"
  | tooManyEntries => "too many entries"
  | tableOutside table start finish size =>
    s!"{table.text} table [{start}, {finish}) outside {size} byte container"
  | stringsOutside start size => s!"string table at {start} outside {size} byte container"
  | kindCounts total declared => s!"kind counts sum to {total}, header declares {declared} entries"

/-! ## 5. Errors of the cache -/

/-- What a cache may be asked for while it is not open for it. -/
inductive Purpose where
  | read
  | write
  | loadingStored
  deriving DecidableEq, Repr

/-- The name of a purpose in messages. -/
def Purpose.text : Purpose → String
  | read => "read"
  | write => "write"
  | loadingStored => "loading entries stored this run"

/-- Whatever can go wrong with a cache. -/
inductive CacheError where
  | lookupFailed (cause : LookupFailure)
  | malformed (cause : Malformation)
  | previouslyFailed (id : UInt32)
  | symbol (cause : SymbolError)
  | stringSeed (cause : SymbolError)
  | arenaExhausted (requested remaining : Nat)
  | arenaFailed
  | badMagic
  | versionMismatch (found expected : UInt32)
  | sizeMismatch (declared actual : Nat)
  | fingerprintMismatch (field : Fingerprint.Field) (cached current : Fingerprint)
  | layout (cause : LayoutFault)
  | corrupt (cause : Corruption)
  | io (path : String) (cause : HostError)
  | notOpen (purpose : Purpose)
  | disabled
  deriving DecidableEq, Repr

/-- How far an error reaches: one artifact is left alone, the cache is disabled, or the data and the
    process do not fit together at all. -/
inductive Severity where
  | artifact
  | cache
  | fatal
  deriving DecidableEq, Repr

/-- The name of a severity. -/
def Severity.name : Severity → String
  | artifact => "Artifact"
  | cache => "Cache"
  | fatal => "Fatal"

namespace CacheError

/-- The name of a kind of error. -/
def name : CacheError → String
  | lookupFailed _ => "LookupFailed"
  | malformed _ => "Malformed"
  | previouslyFailed _ => "PreviouslyFailed"
  | symbol _ => "Symbol"
  | stringSeed _ => "StringSeed"
  | arenaExhausted .. => "ArenaExhausted"
  | arenaFailed => "ArenaFailed"
  | badMagic => "BadMagic"
  | versionMismatch .. => "VersionMismatch"
  | sizeMismatch .. => "SizeMismatch"
  | fingerprintMismatch .. => "FingerprintMismatch"
  | layout _ => "Layout"
  | corrupt _ => "Corrupt"
  | io .. => "Io"
  | notOpen _ => "NotOpen"
  | disabled => "Disabled"

/-- The wording of an error. -/
def message : CacheError → String
  | lookupFailed cause => s!"lookup failed: {cause.message}"
  | malformed cause => s!"malformed artifact: {cause.message}"
  | previouslyFailed id => s!"entry {id} already failed to load in this run"
  | symbol cause => s!"symbol table: {cause.message}"
  | stringSeed cause => s!"cannot restore interned strings: {cause.message}"
  | arenaExhausted requested remaining =>
    s!"cache arena exhausted: requested {requested} bytes with {remaining} remaining"
  | arenaFailed => "cache arena is in failed state"
  | badMagic => "not a code cache container"
  | versionMismatch found expected =>
    s!"container version {found} does not match expected {expected}"
  | sizeMismatch declared actual =>
    s!"container declares {declared} bytes but {actual} are mapped"
  | fingerprintMismatch field cached current =>
    s!"config fingerprint mismatch in `{field.name}`: cached {field.valueText cached}, "
      ++ s!"current {field.valueText current}"
  | layout cause => s!"invalid container layout: {cause.message}"
  | corrupt cause => s!"corrupt cache data: {cause.message}"
  | io path cause => s!"I/O error on {path}: {cause.message}"
  | notOpen purpose => s!"cache is not open for {purpose.text}"
  | disabled => "cache is disabled after an earlier failure"

/-- The wording of what lies behind an error, if that is an error of its own. -/
def cause? : CacheError → Option String
  | lookupFailed cause => some cause.message
  | symbol cause => some cause.message
  | io _ cause => some cause.message
  | _ => none

/-- How far an error reaches. -/
def severity : CacheError → Severity
  | lookupFailed _ | malformed _ | previouslyFailed _ => .artifact
  | symbol cause => if cause.isFatal then .fatal else .artifact
  | corrupt _ => .fatal
  | _ => .cache

/-- Whether an error is a look-up that failed, which happens in the course of things. -/
def isLookupFailure : CacheError → Bool
  | lookupFailed _ => true
  | _ => false

end CacheError

end CodeVault
