import CodeVault.Symbol.Error
import CodeVault.Text.Terminated

/-!
# Interned strings

Diagnostic strings that code points at are kept as copies at fixed addresses, so that a copy can
stand in for the caller's pointer in this process and its id in all others.

* an id is a position in `copies`; a copy never goes away and its address never changes, but `load`
  may move it to another id;
* `placement` says where the host puts the copy with a given serial number; nothing else is known of
  it;
* `intern` finds a string by the pointer it came from, then by its text, and makes a copy otherwise;
* `load` gives the strings of an earlier run the first ids, where they stay (`pinned`).

`SlotTable` is the same table with the maps that a process searches instead of the copies.
-/

namespace CodeVault

/-! ## 1. The table -/

/-- The table's own copy of a string, and its serial number among all copies. -/
structure Copy where
  text : CText
  serial : Nat
  deriving DecidableEq

/-- The copies in the order of their ids, the pointers callers gave with the serial numbers of the
    copies they stood for, the latest first, and the number of ids that came from an earlier run. -/
structure StringTable where
  placement : Nat → Address
  copies : Array Copy
  aliases : List (Address × Nat)
  pinned : Nat

namespace StringTable

/-- The table without strings. -/
def empty (placement : Nat → Address) : StringTable := ⟨placement, #[], [], 0⟩

/-- The number of ids in use. -/
def size (table : StringTable) : Nat := table.copies.size

/-- The strings in the order of their ids. -/
def texts (table : StringTable) : List CText := table.copies.toList.map (·.text)

/-- The string of an id. -/
def text? (table : StringTable) (index : Nat) : Option CText := (table.copies[index]?).map (·.text)

/-- The address of the copy of an id. -/
def addressOf? (table : StringTable) (index : Nat) : Option Address :=
  (table.copies[index]?).map fun copy => table.placement copy.serial

/-- The id of the copy with a serial number. -/
def indexOfSerial? (table : StringTable) (serial : Nat) : Option Nat :=
  table.copies.findIdx? (·.serial == serial)

/-- The id of the copy at an address. -/
def indexOfCopy? (table : StringTable) (addr : Address) : Option Nat :=
  table.copies.findIdx? fun copy => table.placement copy.serial == addr

/-- The id of the string that a pointer stands for: of the copy there, or of the copy that the
    pointer was last given for. -/
def indexOfAddress? (table : StringTable) (addr : Address) : Option Nat :=
  match table.indexOfCopy? addr with
  | some index => some index
  | none => (table.aliases.lookup addr).bind table.indexOfSerial?

/-- The first id with a text. -/
def indexOfText? (table : StringTable) (text : CText) : Option Nat :=
  table.copies.findIdx? (·.text == text)

/-! ## 2. Interning -/

/-- The table in which a pointer stands for the copy of an id. -/
def addAlias (table : StringTable) (pointer : Address) (index : Nat) : StringTable :=
  match table.copies[index]? with
  | some copy => { table with aliases := (pointer, copy.serial) :: table.aliases }
  | none => table

/-- The table with one more copy, at the next id. -/
def push (table : StringTable) (text : CText) : StringTable :=
  { table with copies := table.copies.push ⟨text, table.size⟩ }

/-- The id of the string `text` that is at `pointer` now, and the table afterwards. What the pointer
    stood for counts only while the text is still the same. -/
def intern (table : StringTable) (pointer : Address) (text : CText) :
    Except SymbolError (Nat × StringTable) :=
  match (table.indexOfAddress? pointer).filter fun index => table.text? index == some text with
  | some index => .ok (index, table)
  | none =>
    match table.indexOfText? text with
    | some index => .ok (index, table.addAlias pointer index)
    | none =>
      if maxStrings ≤ table.size then .error .stringTableFull
      else .ok (table.size, (table.push text).addAlias pointer table.size)

/-! ## 3. Loading -/

/-- The copies for strings that get an id of their own now: of equal texts the first takes the local
    copy with that text, and what finds none gets a new copy. Answers these copies, the local copies
    left over, and the next serial number. -/
def adopt : List CText → List Copy → Nat → List Copy × List Copy × Nat
  | [], spare, next => ([], spare, next)
  | text :: rest, spare, next =>
    match spare.find? (·.text == text) with
    | some copy =>
      let (adopted, left, last) := adopt rest (spare.erase copy) next
      (copy :: adopted, left, last)
    | none =>
      let (adopted, left, last) := adopt rest spare (next + 1)
      (⟨text, next⟩ :: adopted, left, last)

/-- The first id among the pinned ones whose string differs from the one to be loaded there. -/
def conflict? (table : StringTable) (strings : List CText) : Option Nat :=
  ((table.texts.take table.pinned).zip strings).findIdx? fun (pinned, loaded) => pinned != loaded

/-- The table in which the strings of an earlier run have the first ids. Strings that were interned
    here move behind them, in their order; those pinned before must agree. -/
def load (table : StringTable) (strings : List CText) : Except SymbolError StringTable :=
  let pinned := max table.pinned strings.length
  if maxStrings < pinned + (table.size - table.pinned) then .error .stringTableFull
  else match table.conflict? strings with
    | some index => .error (.stringIdConflict index)
    | none =>
      let kept := table.copies.toList.take table.pinned
      let spare := table.copies.toList.drop table.pinned
      let (adopted, left, _) := adopt (strings.drop table.pinned) spare table.size
      .ok { table with copies := (kept ++ adopted ++ left).toArray, pinned }

end StringTable

end CodeVault
