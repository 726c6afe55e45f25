import CodeVault.Symbol.StringTable
import Std.Data.HashMap.Lemmas

/-!
# Interned strings in their slots

The table of strings with its maps, as a process keeps it. Copies lie in slots, in the order in
which they were made, and never move; what changes is which id a slot has.

* maps lead from a text to its first id, and from an address to the slot of the copy that is there,
  or that the pointer was last given for;
* `intern` asks these maps, where `StringTable.intern` searches the copies;
* `load` takes all ids away and gives them out again: to what is pinned or loaded, to the strings
  that are left over, and at last to slots that still have none.
-/

namespace CodeVault

/-! ## 1. The table -/

/-- The copies by slot, the ids that slots have, the slots of ids, and the maps. -/
structure SlotTable where
  placement : Nat → Address
  copies : Array CText
  slotIds : Array (Option Nat)
  ids : Array Nat
  byText : Std.HashMap CText Nat
  byCopy : Std.HashMap Address Nat
  aliases : Std.HashMap Address Nat
  pinned : Nat

namespace SlotTable

/-- The table without strings. -/
def empty (placement : Nat → Address) : SlotTable := ⟨placement, #[], #[], #[], ∅, ∅, ∅, 0⟩

/-- The number of ids in use. -/
def size (table : SlotTable) : Nat := table.ids.size

/-- The strings in the order of their ids. -/
def texts (table : SlotTable) : List CText := table.ids.toList.filterMap (table.copies[·]?)

/-- The string of an id. -/
def text? (table : SlotTable) (index : Nat) : Option CText :=
  (table.ids[index]?).bind (table.copies[·]?)

/-- The address of the copy of an id. -/
def addressOf? (table : SlotTable) (index : Nat) : Option Address :=
  (table.ids[index]?).map table.placement

/-- The slot that a pointer leads to: of the copy there, or of the copy that it was last given
    for. -/
def slotOf? (table : SlotTable) (addr : Address) : Option Nat :=
  (table.byCopy[addr]?).or (table.aliases[addr]?)

/-- The id that a slot has. -/
def idOf? (table : SlotTable) (slot : Nat) : Option Nat := (table.slotIds[slot]?).join

/-- The id of the string that a pointer stands for. -/
def indexOfAddress? (table : SlotTable) (addr : Address) : Option Nat :=
  (table.slotOf? addr).bind table.idOf?

/-! ## 2. Copies and ids -/

/-- The table with one more copy, in the next slot, which has no id yet. -/
def pushCopy (table : SlotTable) (text : CText) : SlotTable :=
  { table with
    copies := table.copies.push text
    slotIds := table.slotIds.push none
    byCopy := table.byCopy.insert (table.placement table.copies.size) table.copies.size }

/-- The table in which a slot has the next id. A text that has an id already keeps it. -/
def assign (table : SlotTable) (slot : Nat) : SlotTable :=
  { table with
    ids := table.ids.push slot
    slotIds := table.slotIds.setIfInBounds slot (some table.size)
    byText := match table.copies[slot]? with
      | some text => table.byText.insertIfNew text table.size
      | none => table.byText }

/-- The table in which a pointer leads to a slot. -/
def addAlias (table : SlotTable) (pointer : Address) (slot : Nat) : SlotTable :=
  { table with aliases := table.aliases.insert pointer slot }

/-! ## 3. Interning -/

/-- The id of the string `text` that is at `pointer` now, and the table afterwards. What the pointer
    leads to counts only while the text there is still the same. -/
def intern (table : SlotTable) (pointer : Address) (text : CText) :
    Except SymbolError (Nat × SlotTable) :=
  let known := (table.slotOf? pointer).filter fun slot => table.copies[slot]? == some text
  match known.bind table.idOf? with
  | some index => .ok (index, table)
  | none =>
    match table.byText[text]? with
    | some index => .ok (index, (table.ids[index]?).elim table (table.addAlias pointer))
    | none =>
      if maxStrings ≤ table.size then .error .stringTableFull
      else
        let slot := table.copies.size
        .ok (table.size, ((table.pushCopy text).addAlias pointer slot).assign slot)

/-! ## 4. Loading -/

/-- The first of the ids that are shared whose string differs from the one to be loaded there. -/
def conflict? (table : SlotTable) (shared : Nat) (strings : List CText) : Option Nat :=
  (List.range shared).find? fun i => table.text? i != strings[i]?

/-- The table in which no slot has an id. -/
def unnumbered (table : SlotTable) : SlotTable :=
  { table with ids := #[], slotIds := table.slotIds.map fun _ => none, byText := ∅ }

/-- The slots of the strings that were interned here, by text. -/
def spareSlots (table : SlotTable) : Std.HashMap CText Nat :=
  (table.ids.toList.drop table.pinned).foldl
    (fun spare slot => (table.copies[slot]?).elim spare (spare.insert · slot)) ∅

/-- Gives the id of a position. A position that is shared, or behind the strings, goes to the slot
    that had it before; any other one to the spare slot with the string there, or else to a new copy
    of it. -/
def seat (previous : Array Nat) (shared : Nat) (strings : List CText) :
    SlotTable × Std.HashMap CText Nat → Nat → SlotTable × Std.HashMap CText Nat
  | (table, spare), position =>
    match if position < shared then none else strings[position]? with
    | none => ((previous[position]?).elim table table.assign, spare)
    | some text =>
      match spare[text]? with
      | some slot => (table.assign slot, spare.erase text)
      | none => ((table.pushCopy text).assign table.copies.size, spare)

/-- Gives the next id to a slot that has none. -/
def seatLeft (table : SlotTable) (slot : Nat) : SlotTable :=
  if (table.idOf? slot).isNone then table.assign slot else table

/-- Gives a slot that has no id that of its text. -/
def lend (table : SlotTable) (slot : Nat) : SlotTable :=
  if (table.idOf? slot).isNone then
    { table with
      slotIds := table.slotIds.setIfInBounds slot ((table.copies[slot]?).bind (table.byText[·]?)) }
  else table

/-- The table in which the strings of an earlier run have the first ids. -/
def load (table : SlotTable) (strings : List CText) : Except SymbolError SlotTable :=
  let pinned := max table.pinned strings.length
  if maxStrings < pinned + (table.size - table.pinned) then .error .stringTableFull
  else
    let shared := min table.pinned strings.length
    match table.conflict? shared strings with
    | some index => .error (.stringIdConflict index)
    | none =>
      let (seated, _) := (List.range pinned).foldl (seat table.ids shared strings)
        (table.unnumbered, table.spareSlots)
      let numbered := (table.ids.toList.drop table.pinned).foldl seatLeft seated
      let settled := (List.range numbered.copies.size).foldl lend numbered
      .ok { settled with pinned }

end SlotTable

end CodeVault
