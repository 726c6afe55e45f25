import CodeVault.Arena
import CodeVault.Entry.Codec
import CodeVault.Index.SearchTable

/-!
# The index of entries

A run sees two populations of entries: those of the container that was loaded, found through its
search table, and those written in this run, which are found only by later runs.

* `addEntry` charges the descriptor against the tail of the arena, and links a compiled method to
  the latest version of it with initialisation barriers that may still be entered;
* `invalidate` follows these links up to the first entry that is not entrant; as each step leaves
  one entrant entry less, it ends whatever the links are (`entrantCount`).
-/

namespace CodeVault

/-- The loaded entries with their search and preload tables, and the entries of this run, oldest
    first. -/
structure EntryIndex where
  loaded : Array Entry
  search : Array SearchKey
  preload : Array UInt32
  stored : Array Entry
  deriving DecidableEq, Repr

namespace EntryIndex

/-! ## 1. Two populations -/

/-- The index without entries. -/
def empty : EntryIndex := ⟨#[], #[], #[], #[]⟩

/-- The index over a container, if its tables hold what the search relies on. -/
def ofLoaded (entries : Array Entry) (search : Array SearchKey) (preload : Array UInt32) :
    Except CacheError EntryIndex := do
  SearchTable.validate search entries
  match preload.find? fun index => entries.size ≤ index.toNat with
  | some index => throw (.layout (.preloadIndex index entries.size))
  | none => return ⟨entries, search, preload, #[]⟩

/-- The number of entries. -/
def size (index : EntryIndex) : Nat := index.loaded.size + index.stored.size

/-- The entry of an id. -/
def get? (index : EntryIndex) : EntryId → Option Entry
  | .loaded i => index.loaded[i]?
  | .stored i => index.stored[i]?

/-- The index with the entry of an id replaced; without such an entry nothing changes. -/
def put (index : EntryIndex) (id : EntryId) (entry : Entry) : EntryIndex :=
  match id with
  | .loaded i => { index with loaded := index.loaded.setIfInBounds i entry }
  | .stored i => { index with stored := index.stored.setIfInBounds i entry }

/-- The index with the flags of one entry changed. -/
def flag (index : EntryIndex) (id : EntryId) (f : EntryFlags → EntryFlags) : EntryIndex :=
  match index.get? id with
  | some entry => index.put id { entry with flags := f entry.flags }
  | none => index

/-- The loaded entry that answers a query. -/
def find? (index : EntryIndex) (query : Query) : Option EntryId :=
  (SearchTable.find? index.search index.loaded query).map fun i => .loaded i.toNat

/-! ## 2. Adding -/

/-- Whether an entry is an entrant compiled version, with barriers, of a method. -/
def isBarrierVersion (id : UInt32) (entry : Entry) : Bool :=
  entry.kind == .code && entry.id == id && entry.flags.initBarriers && entry.isEntrant

/-- The last place in a population that holds a barrier version of a method. -/
def lastBarrier? (entries : Array Entry) (id : UInt32) : Option Nat :=
  (entries.toList.reverse.findIdx? (isBarrierVersion id)).map (entries.size - 1 - ·)

/-- The latest barrier version of a method: the last one of this run, else the last loaded one. -/
def barrierVersion? (index : EntryIndex) (id : UInt32) : Option EntryId :=
  match lastBarrier? index.stored id with
  | some i => some (.stored i)
  | none => (lastBarrier? index.loaded id).map .loaded

/-- An entry with its link: a compiled method without barriers and without a link is linked to the
    latest barrier version of it. -/
def linked (index : EntryIndex) (entry : Entry) : Entry :=
  if entry.kind == .code && !entry.flags.initBarriers && entry.next.isNone then
    { entry with next := index.barrierVersion? entry.id }
  else entry

/-- Adds an entry of this run; its descriptor takes room at the tail of the arena. -/
def addEntry (index : EntryIndex) (entry : Entry) : Writing (EntryId × EntryIndex) := do
  let _ ← Arena.reserveTail Entry.encodedSize
  if wordSpace ≤ index.stored.size then throw (.layout .tooManyEntries)
  return (.stored index.stored.size,
    { index with stored := index.stored.push (index.linked entry) })

/-! ## 3. Flags -/

/-- The number of entries that may be entered. -/
def entrantCount (index : EntryIndex) : Nat :=
  index.loaded.toList.countP (·.isEntrant) + index.stored.toList.countP (·.isEntrant)

/-- The index in which an entry is not entrant. -/
def leave (index : EntryIndex) (id : EntryId) : EntryIndex :=
  index.flag id ({ · with notEntrant := true })

theorem countP_set_lt {entries : Array Entry} {i : Nat} {old : Entry} (entry : Entry)
    (hold : entries[i]? = some old) (hent : old.isEntrant) (hnew : entry.isEntrant = false) :
    (entries.setIfInBounds i entry).toList.countP (·.isEntrant) + 1
      = entries.toList.countP (·.isEntrant) := by
  obtain ⟨hlt, hget⟩ := Array.getElem?_eq_some_iff.1 hold
  have hlt' : i < entries.toList.length := by simpa using hlt
  have hget' : entries.toList[i] = old := by simpa using hget
  rw [Array.toList_setIfInBounds, List.countP_set hlt']
  have hpos : 0 < entries.toList.countP (·.isEntrant) :=
    List.countP_pos_iff.2 ⟨old, by rw [← hget']; exact List.getElem_mem hlt', hent⟩
  simp only [hget', hent, hnew, if_true, Bool.false_eq_true, if_false]
  omega

/-- **Taking an entry out of use leaves one entrant entry less.** -/
theorem entrantCount_leave {index : EntryIndex} {id : EntryId} {entry : Entry}
    (hget : index.get? id = some entry) (hent : entry.isEntrant) :
    (index.leave id).entrantCount + 1 = index.entrantCount := by
  cases id with
  | loaded i =>
    simp only [get?] at hget
    have :=
      countP_set_lt { entry with flags := { entry.flags with notEntrant := true } } hget hent rfl
    simp only [leave, flag, get?, hget, put, entrantCount] at *
    omega
  | stored i =>
    simp only [get?] at hget
    have :=
      countP_set_lt { entry with flags := { entry.flags with notEntrant := true } } hget hent rfl
    simp only [leave, flag, get?, hget, put, entrantCount] at *
    omega

/-- Takes an entry and everything linked behind it out of use, up to the first entry that already
    is. Answers how many entries changed. -/
def invalidate (index : EntryIndex) (id : EntryId) : Nat × EntryIndex :=
  match _h : index.get? id with
  | none => (0, index)
  | some entry =>
    if _hent : entry.isEntrant then
      match entry.next with
      | none => (1, index.leave id)
      | some next =>
        let (changed, after) := (index.leave id).invalidate next
        (changed + 1, after)
    else (0, index)
termination_by index.entrantCount
decreasing_by
  have := entrantCount_leave _h _hent
  omega

/-- The index in which an entry has been used again. -/
def markLoaded (index : EntryIndex) (id : EntryId) : EntryIndex :=
  index.flag id ({ · with loaded := true })

/-- The index in which an entry has failed to load; it stays so for this run. -/
def markLoadFail (index : EntryIndex) (id : EntryId) : EntryIndex :=
  index.flag id ({ · with loadFail := true })

end EntryIndex

end CodeVault
