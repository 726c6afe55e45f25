import CodeVault.Text.Hexadecimal

/-!
# Addresses

An address is a 64-bit word of one process. The one sum that is taken of addresses, a start and a
distance, exists only while it stays in the 64-bit range.
-/

namespace CodeVault

/-- An address in the running process. -/
abbrev Address := UInt64

/-- The number of addresses. -/
def addressSpace : Nat := 0x10000000000000000

/-- The number of the 32-bit words in which distances, ids and lengths are kept. -/
def wordSpace : Nat := 0x100000000

namespace Address

/-- The address `distance` bytes after `start`, if there is one. -/
def after? (start : Address) (distance : Nat) : Option Address :=
  if start.toNat + distance < addressSpace then
    some (UInt64.ofNat (start.toNat + distance)) else none

/-- How far `a` is behind `start`, if it is within the `size` bytes from there on. -/
def within? (a start : Address) (size : Nat) : Option Nat :=
  if start ≤ a ∧ a.toNat - start.toNat < size then some (a.toNat - start.toNat) else none

/-- An address as messages show it. -/
def text (a : Address) : String := hexadecimal a.toNat

theorem after?_eq_some {start a : Address} {distance : Nat} :
    start.after? distance = some a ↔ a.toNat = start.toNat + distance := by
  unfold after?
  constructor
  · intro h
    split at h
    · rename_i hlt
      rw [← Option.some.inj h, UInt64.toNat_ofNat_of_lt' hlt]
    · cases h
  · intro h
    have hlt : start.toNat + distance < addressSpace := h ▸ a.toNat_lt
    rw [if_pos hlt, ← h, UInt64.ofNat_toNat]

theorem after?_eq_none {start : Address} {distance : Nat} :
    start.after? distance = none ↔ addressSpace ≤ start.toNat + distance := by
  unfold after?
  split <;> simp <;> omega

theorem within?_eq_some {a start : Address} {size distance : Nat} :
    a.within? start size = some distance ↔ a.toNat = start.toNat + distance ∧ distance < size := by
  have hle : start ≤ a ↔ start.toNat ≤ a.toNat := UInt64.le_iff_toNat_le
  unfold within?
  split
  · rename_i hinside
    rw [hle] at hinside
    rw [Option.some.injEq]
    omega
  · rename_i houtside
    rw [hle] at houtside
    simp only [reduceCtorEq, false_iff]
    omega

/-- **Going forward by the distance measured leads back.** -/
theorem after?_of_within? {a start : Address} {size distance : Nat}
    (h : within? a start size = some distance) : after? start distance = some a :=
  after?_eq_some.2 (within?_eq_some.1 h).1

end Address

end CodeVault
