import CodeVault.Arena
import CodeVault.Cursor

/-!
# Fingerprints in a container

A fingerprint takes 24 bytes, six words. Its collector must be known; its flag bits are kept as they
are. `verify` compares a fingerprint of a container with that of the running process.
-/

namespace CodeVault.Fingerprint

/-- The number of bytes of a fingerprint. -/
def size : Nat := 24

/-- Writes a fingerprint. -/
def write (fingerprint : Fingerprint) : Writing Unit := do
  let _ ← Arena.writeU32 (UInt32.ofNat fingerprint.collector.code)
  let _ ← Arena.writeU32 fingerprint.oopShift
  let _ ← Arena.writeU32 fingerprint.klassShift
  let _ ← Arena.writeU32 fingerprint.objectAlignment
  let _ ← Arena.writeU32 fingerprint.paddingWidth
  let _ ← Arena.writeU32 fingerprint.flags

/-- The words of a fingerprint, in order. -/
def words (fingerprint : Fingerprint) : List UInt32 :=
  [UInt32.ofNat fingerprint.collector.code, fingerprint.oopShift, fingerprint.klassShift,
   fingerprint.objectAlignment, fingerprint.paddingWidth, fingerprint.flags]

/-- Reads a fingerprint. -/
def read : Reading Fingerprint := do
  let raw ← Cursor.readU32
  let some collector := Collector.ofCode? raw.toNat | Cursor.corrupt (.unknownCollector raw)
  let oopShift ← Cursor.readU32
  let klassShift ← Cursor.readU32
  let objectAlignment ← Cursor.readU32
  let paddingWidth ← Cursor.readU32
  let flags ← Cursor.readU32
  return { collector, oopShift, klassShift, objectAlignment, paddingWidth, flags }

/-- Refuses the fingerprint of a container that differs from that of the running process. -/
def verify (current cached : Fingerprint) : Except CacheError Unit :=
  match cached.firstDifference? current with
  | none => .ok ()
  | some field => .error (.fingerprintMismatch field cached current)

end CodeVault.Fingerprint
