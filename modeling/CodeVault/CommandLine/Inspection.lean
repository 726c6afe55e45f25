import CodeVault.Artifact.Read
import CodeVault.CommandLine.Failure
import CodeVault.Container.Basic
import CodeVault.Json.Basic

/-!
# Inspections

What can be said of a container without a process to load it: its header, and one line for each
entry. The same report has two forms, a table and JSON.
-/

namespace CodeVault.CommandLine

/-! ## 1. What is reported -/

/-- An entry with the name of its artifact, if that can be read. -/
structure EntryReport where
  entry : Entry
  name : Option String
  deriving DecidableEq, Repr

/-- What is reported of a container; of its strings only the number. -/
structure Inspection where
  header : Header
  strings : Nat
  entries : List EntryReport
  deriving DecidableEq, Repr

namespace Inspection

/-- The report of an entry. -/
def entryReport (container : Container) (entry : Entry) : EntryReport :=
  ⟨entry,
    (do Payload.peekName (← container.payload entry) entry : Except CacheError String).toOption⟩

/-- The report of a container, whose entries and strings must be readable. -/
def ofContainer (container : Container) : Except CacheError Inspection := do
  let entries ← container.entries
  let strings ← container.strings
  return ⟨container.header, strings.length, entries.map (entryReport container)⟩

/-! ## 2. As a table -/

/-- A text with blanks before it, up to a width. -/
def toRight (width : Nat) (text : String) : String :=
  String.ofList (List.replicate (width - text.length) ' ') ++ text

/-- A text with blanks behind it, up to a width. -/
def toLeft (width : Nat) (text : String) : String :=
  text ++ String.ofList (List.replicate (width - text.length) ' ')

/-- A line of the table of entries. -/
def row (number kind id level decompile size code name : String) : String :=
  toRight 5 number ++ "  " ++ toLeft 11 kind ++ " " ++ toRight 10 id ++ " " ++
    toRight 3 level ++ " " ++ toRight 4 decompile ++ " " ++ toRight 8 size ++ " " ++
    toRight 8 code ++ "  " ++ name

/-- The line of an entry. -/
def entryRow (item : EntryReport × Nat) : String :=
  let (report, number) := item
  let entry := report.entry
  row (toString number) entry.kind.name (toString entry.id) (toString entry.level)
    (toString entry.decompile) (toString entry.size) (toString entry.codeSize)
    (report.name.getD "<unreadable>")

/-- The lines about the container as a whole. -/
def headerLines (path : String) (report : Inspection) : List String :=
  let header := report.header
  let counts := header.counts
  let created := header.created?.getD "unknown"
  [s!"container {path}",
   s!"  version      {header.version}",
   s!"  size         {header.size} bytes",
   s!"  created      {created}",
   s!"  entries      {header.entries.count} ({counts.stubs} stubs, {counts.blobs} blobs, "
     ++ s!"{counts.adapters} adapters, {counts.code} methods)",
   s!"  preload      {header.preload.count}",
   s!"  strings      {report.strings}",
   s!"  fingerprint  {header.fingerprint.text}"]

/-- The report as a table. -/
def text (path : String) (report : Inspection) : String :=
  let lines := headerLines path report
    ++ ["", row "#" "kind" "id" "lvl" "dec" "size" "code" "name"]
    ++ report.entries.zipIdx.map entryRow
  String.join (lines.map (· ++ "\n"))

/-! ## 3. As JSON -/

/-- A word. -/
def wordJson (word : UInt32) : Json := .number word.toNat

/-- A region of a header. -/
def regionJson (region : Region) : Json :=
  .object [("count", wordJson region.count), ("offset", wordJson region.offset)]

/-- A fingerprint. -/
def fingerprintJson (fingerprint : Fingerprint) : Json :=
  .object [("gc", .text fingerprint.collector.name),
    ("compressed_oop_shift", wordJson fingerprint.oopShift),
    ("compressed_klass_shift", wordJson fingerprint.klassShift),
    ("object_alignment", wordJson fingerprint.objectAlignment),
    ("contended_padding_width", wordJson fingerprint.paddingWidth),
    ("flags", .text fingerprint.flagsText)]

/-- A header. -/
def headerJson (header : Header) : Json :=
  .object [("version", wordJson header.version), ("cache_size", wordJson header.size),
    ("created_at", .number header.createdAt.toNat), ("strings", regionJson header.strings),
    ("entries", regionJson header.entries), ("search_offset", wordJson header.searchOffset),
    ("preload", regionJson header.preload),
    ("counts", .object [("adapters", wordJson header.counts.adapters),
      ("stubs", wordJson header.counts.stubs), ("blobs", wordJson header.counts.blobs),
      ("code", wordJson header.counts.code)]),
    ("fingerprint", fingerprintJson header.fingerprint)]

/-- The report of an entry. -/
def entryJson (report : EntryReport) : Json :=
  let entry := report.entry
  .object [("kind", .text entry.kind.variantName), ("id", wordJson entry.id),
    ("name", .optionalText report.name), ("comp_level", .number entry.level.toNat),
    ("comp_id", wordJson entry.compileId), ("decompile", wordJson entry.decompile),
    ("inlined_bytecodes", wordJson entry.inlinedBytecodes), ("flags", .text entry.flags.text),
    ("size", wordJson entry.size), ("code_size", wordJson entry.codeSize)]

/-- The report. -/
def toJson (report : Inspection) : Json :=
  .object [("header", headerJson report.header),
    ("created", .optionalText report.header.created?), ("strings", .number report.strings),
    ("entries", .array (report.entries.map entryJson))]

end Inspection

end CodeVault.CommandLine
