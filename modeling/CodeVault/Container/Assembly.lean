import CodeVault.Arena
import CodeVault.Container.Layout

/-!
# Assembling a container

A container is written into an arena, part by part, and each part starts where the arena stands when
it is its turn.

* the arena has to be large enough before any part has a place (`Layout.estimate`), and where the
  payloads start has to be known before the entries are written, because their offsets count from
  there (`writeEntries`);
* the header comes last: it is written into an arena of its own and put over the bytes that were
  kept free for it (`assemble`).
-/

namespace CodeVault

/-- What comes of an action in a new arena: its answer, and the bytes written. -/
def Arena.inNew {α : Type} (capacity : Nat) (action : Encoding α) :
    Except (Fault CacheError) (α × Bytes) :=
  match action (ofCapacity capacity) with
  | .ok a arena => .ok (a, arena.bytes)
  | .error fault _ => .error fault

/-- The bytes that strings take with the nuls behind them. -/
def Layout.stringRoom (strings : List CText) : Nat :=
  strings.foldl (fun size text => size + text.terminated.size) 0

/-- As many bytes as a container of these strings and entries may take. -/
def Layout.estimate (strings : List CText) (merged : Merged) : Nat :=
  Header.encodedSize + alignUp (stringRoom strings) + alignUp (4 * merged.preload.size)
    + SearchKey.size * merged.search.length + Entry.encodedSize * merged.entries.size +
      merged.payload.size + 64

namespace Container

/-- The place where the arena stands. -/
def here : Writing UInt32 := do ofOutcome (word (← get).position)

/-- A region of `count` items that starts where the arena stands. -/
def openRegion (count : Nat) : Writing Region := do
  let count ← ofOutcome (word count)
  let offset ← here
  return ⟨count, offset⟩

/-- Writes things one behind the other, and zeros up to the next boundary. -/
def writeTable {α : Type} (encode : α → Bytes) (things : List α) : Writing Unit := do
  things.forM fun thing => do let _ ← Arena.write (encode thing)
  Arena.align

/-- Writes an entry of a container whose payloads start at a place, and counts it. -/
def writeEntry (payloadAt : Nat) (counts : KindCounts) (entry : Entry) : Writing KindCounts := do
  let placed ← ofOutcome (rebase payloadAt entry)
  let _ ← Arena.write placed.encode
  return counts.record entry.kind

/-- Writes the entries and their bytes; answers where the entries are, and how many there are of
    each kind. -/
def writeEntries (merged : Merged) : Writing (Region × KindCounts) := do
  let payloadAt := alignUp ((← get).position + Entry.encodedSize * merged.entries.size)
  let region ← openRegion merged.entries.size
  let counts ← merged.entries.toList.foldlM (writeEntry payloadAt) .zero
  Arena.align
  let _ ← Arena.write merged.payload
  return (region, counts)

/-- Writes all parts of a container behind its header, and answers the header. -/
def writeParts (strings : List CText) (merged : Merged) (fingerprint : Fingerprint) (now : UInt64) :
    Writing Header := do
  let stringRegion ← openRegion strings.length
  writeTable CText.terminated strings
  let preloadRegion ← openRegion merged.preload.size
  writeTable Bytes.ofU32 merged.preload.toList
  let searchOffset ← here
  writeTable SearchKey.encode merged.search
  let (entryRegion, counts) ← writeEntries merged
  let size ← here
  return { Header.blank fingerprint now with
    size
    strings := stringRegion
    entries := entryRegion
    searchOffset
    preload := preloadRegion
    counts }

/-- Writes a container. -/
def assemble (strings : List CText) (merged : Merged) (fingerprint : Fingerprint) (now : UInt64) :
    Except (Fault CacheError) Bytes := do
  let (header, parts) ← Arena.inNew (Layout.estimate strings merged) do
    let _ ← Arena.reserve Header.encodedSize
    writeParts strings merged fingerprint now
  let (_, front) ← Arena.inNew Header.encodedSize header.write
  return parts.overwrite 0 front

end Container

end CodeVault
