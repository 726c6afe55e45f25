import CodeVault.Index.Basic

/-!
# Merging entries

At the end of a run the entries that survive are put together again: first those of the container
that was loaded, then those of this run, with their bytes packed one behind the other.

* `Entry.survives` says which entries are kept: not those that failed to load, nor preload code that
  was invalidated, which may rest on assumptions that no longer hold;
* everything else that was invalidated may be entered again in the next run.
-/

namespace CodeVault

/-- The entries that were kept, with offsets into their packed bytes, their keys, the places of the
    code to be installed before its first call, and the number of entries left out. -/
structure Merged where
  entries : Array Entry
  payload : Bytes
  search : List SearchKey
  preload : Array UInt32
  skipped : Nat
  deriving DecidableEq, Repr

/-- Whether an entry is kept at the end of a run. -/
def Entry.survives (entry : Entry) : Bool :=
  !entry.flags.loadFail && !(entry.flags.notEntrant && entry.flags.forPreload)

/-- Whether an entry is to be listed for installation before its first call. -/
def Entry.isPreloadCode (entry : Entry) : Bool :=
  entry.isEntrant && entry.flags.forPreload && entry.kind == .code

namespace Merged

/-- Nothing kept and nothing left out. -/
def empty : Merged := ⟨#[], #[], [], #[], 0⟩

/-- An entry as it is kept: entrant, without what belongs to the run, at its new offset. -/
def keptEntry (entry : Entry) (offset : Nat) : Entry :=
  { entry with
    offset := UInt32.ofNat offset
    flags := { entry.flags.persistent with notEntrant := false }
    next := none }

/-- Takes in one entry, whose offset counts in `source`. -/
def absorb (source : Bytes) (merged : Merged) (entry : Entry) : Except CacheError Merged :=
  if !entry.survives then .ok { merged with skipped := merged.skipped + 1 }
  else match source.slice? entry.offset.toNat entry.size.toNat with
    | none =>
      .error (.corrupt (.payloadOutside entry.id entry.offset.toNat entry.size source.size))
    | some bytes =>
      let offset := merged.payload.size
      if wordSpace ≤ offset then .error (.layout (.payloadOffset offset))
      else
        let place := UInt32.ofNat merged.entries.size
        .ok {
          entries := merged.entries.push (keptEntry entry offset)
          payload := merged.payload ++ bytes ++ Bytes.zeros (paddingAfter (offset + bytes.size))
          search := merged.search ++ [⟨entry.id, place⟩]
          preload := if entry.isPreloadCode then merged.preload.push place else merged.preload
          skipped := merged.skipped }

/-- Merges the loaded entries, whose bytes are in `image`, with those of the run, whose bytes are in
    `arena`. -/
def ofPopulations (loaded : Array Entry) (image : Bytes) (stored : Array Entry) (arena : Bytes) :
    Except CacheError Merged := do
  let kept ← loaded.toList.foldlM (absorb image) empty
  let merged ← stored.toList.foldlM (absorb arena) kept
  return { merged with search := SearchTable.sort merged.search }

end Merged

/-- The merge of both populations of an index. -/
def EntryIndex.merge (index : EntryIndex) (image arena : Bytes) : Except CacheError Merged :=
  Merged.ofPopulations index.loaded image index.stored arena

end CodeVault
