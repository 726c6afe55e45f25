import CodeVault.Bytes

/-!
# Nul-terminated text

Text as a host holds it: bytes without a nul, kept with a nul behind them. The bytes need not be the
UTF-8 form of anything.
-/

namespace CodeVault

/-- Bytes without a nul. -/
abbrev CText := { bytes : Bytes // (0 : UInt8) ∉ bytes }

namespace CText

/-- The bytes as text, if there is no nul among them. -/
def ofBytes? (bytes : Bytes) : Option CText :=
  if h : (0 : UInt8) ∉ bytes then some ⟨bytes, h⟩ else none

/-- The bytes with the nul that ends them. -/
def terminated (text : CText) : Bytes := text.val.push 0

end CText

namespace Bytes

/-- The first place from `pos` on that holds `byte`. -/
def findByte? (data : Bytes) (byte : UInt8) (pos : Nat) : Option Nat :=
  if h : pos < data.size then
    if data[pos] = byte then some pos else findByte? data byte (pos + 1)
  else none
termination_by data.size - pos

/-- **A place that is found is the first one.** -/
theorem findByte?_eq_some {data : Bytes} {byte : UInt8} {pos found : Nat}
    (h : data.findByte? byte pos = some found) :
    pos ≤ found ∧ data[found]? = some byte ∧ ∀ i, pos ≤ i → i < found → data[i]? ≠ some byte := by
  fun_induction findByte? data byte pos with
  | case1 pos hlt heq =>
    simp only [Option.some.injEq] at h
    subst h
    exact ⟨Nat.le_refl _, by simp [heq, hlt], fun i h1 h2 => absurd h2 (by omega)⟩
  | case2 pos hlt hne ih =>
    obtain ⟨h1, h2, h3⟩ := ih h
    refine ⟨by omega, h2, fun i hi hi' => ?_⟩
    rcases Nat.eq_or_lt_of_le hi with rfl | hgt
    · simp [hlt, hne]
    · exact h3 i hgt hi'
  | case3 => simp at h

theorem lt_size_of_findByte? {data : Bytes} {byte : UInt8} {pos found : Nat}
    (h : data.findByte? byte pos = some found) : found < data.size :=
  (Array.getElem?_eq_some_iff.1 (findByte?_eq_some h).2.1).1

/-- The bytes before the place found do not hold the byte. -/
theorem not_mem_extract_of_findByte? {data : Bytes} {byte : UInt8} {pos found : Nat}
    (h : data.findByte? byte pos = some found) : byte ∉ data.extract pos found := by
  intro hmem
  obtain ⟨i, hi, hget⟩ := Array.mem_iff_getElem.1 hmem
  have hlt := lt_size_of_findByte? h
  simp only [Array.size_extract] at hi
  have hne := (findByte?_eq_some h).2.2 (pos + i) (by omega) (by omega)
  rw [Array.getElem_extract] at hget
  exact hne (by rw [Array.getElem?_eq_getElem (by omega), hget])

end Bytes

end CodeVault
