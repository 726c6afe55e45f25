import CodeVault.Cursor

/-!
# The search table

The entries of a container are found through keys, pairs of an entry's id and its place, sorted by
id.

* several entries may share an id, so a binary search only leads into the run of keys with that id
  (`lastAtMost`); from there the keys before are looked at, then those after;
* `validate` checks all that the search relies on: one key for each entry, sorted, each at an entry
  with its id.
-/

namespace CodeVault

/-- A key of the search table. -/
structure SearchKey where
  id : UInt32
  index : UInt32
  deriving DecidableEq, Repr

namespace SearchKey

/-- The number of bytes of a key. -/
def size : Nat := 8

/-- The bytes of a key. -/
def encode (key : SearchKey) : Bytes := Bytes.ofU32 key.id ++ Bytes.ofU32 key.index

/-- Reads a key. -/
def decode : Reading SearchKey := do
  let id ← Cursor.readU32
  let index ← Cursor.readU32
  return ⟨id, index⟩

end SearchKey

namespace SearchTable

/-- Keys sorted by id; keys with the same id keep their order. -/
def sort (keys : List SearchKey) : List SearchKey := keys.mergeSort fun a b => a.id ≤ b.id

/-- The first key whose id is greater than the next one's, as the number of the next row. -/
def firstUnsorted? (keys : List SearchKey) : Option Nat :=
  ((keys.zip keys.tail).findIdx? fun (a, b) => b.id < a.id).map (· + 1)

/-- What is wrong with one key. -/
def keyFault? (entries : Array Entry) (key : SearchKey) : Option LayoutFault :=
  match entries[key.index.toNat]? with
  | none => some (.rowWithoutEntry key.index)
  | some entry =>
    if entry.id = key.id then none else some (.rowDisagrees key.id key.index entry.id)

/-- Checks that a table has one key for each entry, is sorted, and that each key is at an entry with
    its id. -/
def validate (keys : Array SearchKey) (entries : Array Entry) : Except CacheError Unit :=
  if keys.size ≠ entries.size then .error (.layout (.rowCount keys.size entries.size))
  else match firstUnsorted? keys.toList with
    | some row => .error (.layout (.unsorted row))
    | none =>
      match keys.toList.findSome? (keyFault? entries) with
      | some fault => .error (.layout fault)
      | none => .ok ()

/-- The number of keys whose id is at most `id`, by halving `[low, high)`: everything before `low`
    is at most `id` and everything from `high` on is greater. -/
def countAtMost (keys : Array SearchKey) (id : UInt32) (low high : Nat) : Nat :=
  if low < high then
    let middle := (low + high) / 2
    match keys[middle]? with
    | some key => if key.id ≤ id then countAtMost keys id (middle + 1) high
                  else countAtMost keys id low middle
    | none => countAtMost keys id low middle
  else low
termination_by high - low

/-- The place of the last key with an id. -/
def lastOf? (keys : Array SearchKey) (id : UInt32) : Option Nat :=
  match countAtMost keys id 0 keys.size with
  | 0 => none
  | count + 1 =>
    match keys[count]? with
    | some key => if key.id = id then some count else none
    | none => none

/-- Whether the entry at a key answers a query. -/
def keyAnswers (entries : Array Entry) (query : Query) (key : SearchKey) : Bool :=
  match entries[key.index.toNat]? with
  | some entry => entry.answers query
  | none => false

/-- The entry that answers a query: the one at the last key with the id, or the nearest before it in
    the run of keys with the id, or the nearest after. -/
def find? (keys : Array SearchKey) (entries : Array Entry) (query : Query) : Option UInt32 :=
  match lastOf? keys query.id with
  | none => none
  | some hit =>
    let sameId := fun (key : SearchKey) => key.id == query.id
    let upTo := (keys.toList.take (hit + 1)).reverse.takeWhile sameId
    let after := (keys.toList.drop (hit + 1)).takeWhile sameId
    ((upTo ++ after).find? (keyAnswers entries query)).map (·.index)

end SearchTable

end CodeVault
