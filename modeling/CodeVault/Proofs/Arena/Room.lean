import CodeVault.Proofs.Arena.Append

/-!
# The two ends of an arena do not meet

* `Fits capacity slots arena`: the slots carved off the high end take `slots` bytes, and they and
  the bytes written fit into the arena;
* **this outlasts all writing** (`outlasts_fits`); carving off a slot is what changes it
  (`reserveTail_ok`).
-/

namespace CodeVault.Arena

open Bytes

variable {capacity slots : Nat} {arena after : Arena}

/-- The bytes written and the slots fit into an arena of that capacity. -/
structure Fits (capacity slots : Nat) (arena : Arena) : Prop where
  capacity_eq : arena.capacity = capacity
  tail_eq : arena.tail = slots
  room : arena.position + slots ≤ capacity

theorem fits_ofCapacity (capacity : Nat) : Fits capacity 0 (ofCapacity capacity) :=
  ⟨rfl, rfl, Nat.zero_le _⟩

/-- As many bytes fit as there is said to be room for. -/
theorem Fits.of_remaining {more : Nat} (h : Fits capacity slots arena)
    (hroom : more ≤ arena.remaining) :
    arena.position + slots + more ≤ capacity := by
  have hfits := h.room
  rw [remaining, h.capacity_eq, h.tail_eq] at hroom
  rw [position] at hfits ⊢
  omega

/-- Only as many bytes are written as there is room for. -/
theorem fits_write (data : Bytes) : Preserves (Fits capacity slots) (write data) := by
  refine (preserves_ensure (fun _ _ h => ⟨h.capacity_eq, h.tail_eq, h.room⟩) _).bind_ok ?_
  intro arena middle _ h hensure _
  obtain ⟨hroom, rfl⟩ := ensure_ok hensure
  refine ⟨h.capacity_eq, h.tail_eq, ?_⟩
  have hfits := h.of_remaining hroom
  show (middle.bytes ++ data).size + slots ≤ capacity
  rw [position] at hfits
  rw [Array.size_append]
  omega

/-- A word that is written over others takes no room. -/
theorem fits_patchU32 (pos : Nat) (value : UInt32) :
    Preserves (Fits capacity slots) (patchU32 pos value) := by
  refine preserves_patchU32 fun arena h hend => ⟨h.capacity_eq, h.tail_eq, ?_⟩
  have hroom : pos + (ofU32 value).size ≤ arena.bytes.size := by
    rw [size_ofU32]
    exact hend
  show (arena.bytes.overwrite pos (ofU32 value)).size + slots ≤ capacity
  rw [size_overwrite hroom]
  exact h.room

theorem fits_truncate {pos : Nat} (h : Fits capacity slots arena) :
    Fits capacity slots (arena.truncate pos) := by
  refine ⟨h.capacity_eq, h.tail_eq, ?_⟩
  have hfits := h.room
  show (arena.bytes.extract 0 pos).size + slots ≤ capacity
  rw [position] at hfits
  rw [Array.size_extract]
  omega

/-- **Bytes and slots go on fitting into the arena, however much is written, written over or taken
    back.** -/
theorem outlasts_fits : Outlasts (Fits capacity slots) 0 where
  write := fits_write
  patchU32 pos value _ := fits_patchU32 pos value
  truncate _ _ h _ := fits_truncate h
  edge_le _ _ := Nat.zero_le _

/-- **A slot that is carved off fits behind the others.** -/
theorem Fits.reserveTail {size offset : Nat} (h : Fits capacity slots arena)
    (hreserve : reserveTail size arena = .ok offset after) :
    Fits capacity (slots + size) after := by
  obtain ⟨hroom, rfl⟩ := reserveTail_ok hreserve
  have hfits := h.of_remaining hroom
  refine ⟨h.capacity_eq, by rw [← h.tail_eq], ?_⟩
  show arena.position + (slots + size) ≤ capacity
  omega

end CodeVault.Arena
