import CodeVault.Error
import CodeVault.Fault

/-!
# The arena

A bounded buffer that is written from both ends.

* payload bytes grow upward from offset zero, and slots are carved downward from the capacity; the
  two never meet;
* the first request that does not fit is refused and marks the arena as failed, and from then on
  every request is refused, so that nothing torn can follow an error that was overlooked;
* `truncate` takes back payload bytes, but not the mark.
-/

namespace CodeVault

/-- The bytes written, the capacity, the number of bytes carved off the high end, and the mark. -/
structure Arena where
  bytes : Bytes
  capacity : Nat
  tail : Nat
  failed : Bool
  deriving DecidableEq, Repr

/-- An action on an arena. What it wrote before it stopped stays. -/
abbrev Writing := EStateM CacheError Arena

/-- An action on an arena in which the process may stop. -/
abbrev Encoding := EStateM (Fault CacheError) Arena

namespace Arena

/-! ## 1. The two ends -/

/-- The most bytes that a process can hold in one piece. -/
def maxBytes : Nat := 0x7FFFFFFFFFFFFFFF

/-- An arena in which nothing has been written. -/
def ofCapacity (capacity : Nat) : Arena := ⟨#[], capacity, 0, false⟩

/-- The offset of the next byte. -/
def position (arena : Arena) : Nat := arena.bytes.size

/-- The number of bytes between the payload and the slots. -/
def remaining (arena : Arena) : Nat := arena.capacity - arena.tail - arena.bytes.size

/-- Asks for room for `requested` bytes. -/
def ensure (requested : Nat) : Writing Unit := fun arena =>
  if arena.failed then .error .arenaFailed arena
  else if arena.remaining < requested then
    .error (.arenaExhausted requested arena.remaining) { arena with failed := true }
  else .ok () arena

/-- Puts bytes at the end; there has to be room for them. -/
def append (data : Bytes) : Writing Nat := fun arena =>
  .ok arena.position { arena with bytes := arena.bytes ++ data }

/-- Writes bytes and answers where. -/
def write (data : Bytes) : Writing Nat := do
  ensure data.size
  append data

/-- Writes `n` zero bytes and answers where. The capacity may be more than a process can hold; a
    request that is within the one and beyond the other stops the process. -/
def reserve (n : Nat) : Encoding Nat := do
  (ensure n : Writing Unit)
  if maxBytes < (← get).position + n then throw (.halt .oversize)
  (append (Bytes.zeros n) : Writing Nat)

/-- Carves `n` bytes off the high end and answers where. -/
def reserveTail (n : Nat) : Writing Nat := do
  ensure n
  fun arena => .ok (arena.capacity - (arena.tail + n)) { arena with tail := arena.tail + n }

/-- Takes back everything written from `position` on. -/
def truncate (position : Nat) (arena : Arena) : Arena :=
  { arena with bytes := arena.bytes.extract 0 position }

/-- Writes a word over four bytes that were written before. -/
def patchU32 (pos : Nat) (value : UInt32) : Encoding Unit := fun arena =>
  if addressSpace ≤ pos + 4 then .error (.halt .overflow) arena
  else if arena.bytes.size < pos + 4 then .error (.error (.corrupt (.patchPastEnd pos))) arena
  else .ok () { arena with bytes := arena.bytes.overwrite pos (Bytes.ofU32 value) }

/-! ## 2. Words and texts -/

/-- Writes a byte. -/
def writeU8 (value : UInt8) : Writing Nat := write #[value]

/-- Writes a word of two bytes. -/
def writeU16 (value : UInt16) : Writing Nat := write (Bytes.ofU16 value)

/-- Writes a word of four bytes. -/
def writeU32 (value : UInt32) : Writing Nat := write (Bytes.ofU32 value)

/-- Writes a signed word of four bytes. -/
def writeI32 (value : Int32) : Writing Nat := write (Bytes.ofU32 value.toUInt32)

/-- Writes a word of eight bytes. -/
def writeU64 (value : UInt64) : Writing Nat := write (Bytes.ofU64 value)

/-- Writes an address. -/
def writeAddress (addr : Address) : Writing Nat := writeU64 addr

/-- Writes a text with its length before it. -/
def writeString (text : String) : Writing Nat := do
  let bytes := Bytes.ofString text
  if wordSpace ≤ bytes.size then throw (.malformed (.longString bytes.size))
  let offset ← writeU32 (UInt32.ofNat bytes.size)
  let _ ← write bytes
  return offset

/-- Writes a text with a nul after it, and answers where and how long it is with the nul. -/
def writeCString (text : String) : Writing (Nat × Nat) := do
  let bytes := Bytes.ofString text
  if bytes.contains 0 then throw (.malformed (.nulInName text))
  let offset ← write (bytes.push 0)
  return (offset, bytes.size + 1)

/-- Writes zero bytes up to the next boundary; at a boundary there is nothing to ask for. -/
def align : Writing Unit := do
  let padding := paddingAfter (← get).position
  if 0 < padding then
    let _ ← write (Bytes.zeros padding)

end Arena

end CodeVault
