import CodeVault.Container.Basic
import CodeVault.Index.Merge

/-!
# Laying out a container

A container is its header, the strings, the preload table, the search table, the entries and the
payloads, in this order, each starting at a boundary.

* `Layout.ofParts` computes where each part starts from the sizes of the parts before it;
* `build` writes the parts one behind the other. It is refused only when a place or a count does not
  fit a word.
-/

namespace CodeVault

/-- Where the parts of a container start, and where it ends. -/
structure Layout where
  strings : Nat
  preload : Nat
  search : Nat
  entries : Nat
  payload : Nat
  finish : Nat
  deriving DecidableEq, Repr

namespace Layout

/-- The bytes of the string table. -/
def stringBytes (strings : List CText) : Bytes :=
  strings.foldl (fun bytes text => bytes ++ text.terminated) #[]

/-- The places of the parts of a container with these strings and entries. -/
def ofParts (strings : List CText) (merged : Merged) : Layout :=
  let stringsAt := Header.encodedSize
  let preloadAt := alignUp (stringsAt + (stringBytes strings).size)
  let searchAt := alignUp (preloadAt + 4 * merged.preload.size)
  let entriesAt := alignUp (searchAt + SearchKey.size * merged.search.length)
  let payloadAt := alignUp (entriesAt + Entry.encodedSize * merged.entries.size)
  ⟨stringsAt, preloadAt, searchAt, entriesAt, payloadAt, payloadAt + merged.payload.size⟩

end Layout

namespace Container

/-- A place or a count as a word. -/
def word (n : Nat) : Except CacheError UInt32 :=
  if n < wordSpace then .ok (UInt32.ofNat n) else .error (.layout (.containerOffset n))

/-- An entry whose offset counts from the start of the container. -/
def rebase (payloadAt : Nat) (entry : Entry) : Except CacheError Entry := do
  return { entry with offset := ← word (payloadAt + entry.offset.toNat) }

/-- Bytes with zeros up to the next boundary behind them. -/
def padded (part : Bytes) : Bytes := part ++ Bytes.zeros (paddingAfter part.size)

/-- The bytes of a container with these strings and entries. -/
def build (strings : List CText) (merged : Merged) (fingerprint : Fingerprint) (now : UInt64) :
    Except CacheError Bytes := do
  let layout := Layout.ofParts strings merged
  let stringRegion : Region := ⟨← word strings.length, ← word layout.strings⟩
  let preloadRegion : Region := ⟨← word merged.preload.size, ← word layout.preload⟩
  let searchOffset ← word layout.search
  let entryRegion : Region := ⟨← word merged.entries.size, ← word layout.entries⟩
  let entries ← merged.entries.toList.mapM (rebase layout.payload)
  let size ← word layout.finish
  let header : Header :=
    { Header.blank fingerprint now with
      size
      strings := stringRegion
      entries := entryRegion
      searchOffset
      preload := preloadRegion
      counts := merged.entries.foldl (fun counts entry => counts.record entry.kind) .zero }
  return header.encode
    ++ padded (Layout.stringBytes strings)
    ++ padded (merged.preload.toList.flatMap fun i => wordBytes 4 i.toNat).toArray
    ++ padded (merged.search.flatMap fun key => key.encode.toList).toArray
    ++ padded (entries.flatMap fun entry => entry.encode.toList).toArray
    ++ merged.payload

end Container

end CodeVault
