/-!
# Bytes

The bytes of a container and the fixed-width words in them.

* a byte string is an array of bytes; `slice?` is the one way to look at a range of it, and it
  refuses a range that is not inside;
* words are little-endian: `wordBytes` writes the digits of a number to base 256, lowest first, and
  `wordValue` reads them back;
* everything of a container starts at a multiple of eight bytes (`alignUp`).
-/

namespace CodeVault

/-- A byte string. -/
abbrev Bytes := Array UInt8

/-! ## 1. Ranges -/

namespace Bytes

/-- A run of `n` zero bytes. -/
def zeros (n : Nat) : Bytes := Array.replicate n 0

/-- The UTF-8 form of a text. -/
def ofString (s : String) : Bytes := s.toUTF8.data

/-- The `size` bytes from `start` on, if all of them are there. -/
def slice? (data : Bytes) (start size : Nat) : Option Bytes :=
  if start + size ≤ data.size then some (data.extract start (start + size)) else none

/-- The bytes of `data` with `patch` written over the bytes from `start` on. -/
def overwrite (data : Bytes) (start : Nat) (patch : Bytes) : Bytes :=
  data.extract 0 start ++ patch ++ data.extract (start + patch.size) data.size

@[simp] theorem size_zeros (n : Nat) : (zeros n).size = n := by simp [zeros]

theorem size_of_slice? {data part : Bytes} {start size : Nat}
    (h : data.slice? start size = some part) : part.size = size := by
  unfold slice? at h
  split at h
  · simp only [Option.some.injEq] at h
    subst h
    simp only [Array.size_extract]
    omega
  · simp at h

/-- **A range is readable exactly when it lies inside.** -/
theorem slice?_isSome {data : Bytes} {start size : Nat} :
    (data.slice? start size).isSome ↔ start + size ≤ data.size := by
  unfold slice?
  split <;> simp_all

theorem size_overwrite {data patch : Bytes} {start : Nat} (h : start + patch.size ≤ data.size) :
    (data.overwrite start patch).size = data.size := by
  simp only [overwrite, Array.size_append, Array.size_extract]
  omega

end Bytes

/-! ## 2. Little-endian words -/

/-- The lowest `width` digits of `value` to base 256, lowest first. -/
def wordBytes : Nat → Nat → List UInt8
  | 0, _ => []
  | width + 1, value => UInt8.ofNat value :: wordBytes width (value / 256)

/-- The number whose digits to base 256 are `digits`, lowest first. -/
def wordValue : List UInt8 → Nat
  | [] => 0
  | digit :: rest => digit.toNat + 256 * wordValue rest

@[simp] theorem length_wordBytes (width value : Nat) : (wordBytes width value).length = width := by
  induction width generalizing value with
  | zero => rfl
  | succ w ih => simp [wordBytes, ih]

namespace Bytes

/-- A word of two bytes. -/
def ofU16 (v : UInt16) : Bytes := (wordBytes 2 v.toNat).toArray

/-- A word of four bytes. -/
def ofU32 (v : UInt32) : Bytes := (wordBytes 4 v.toNat).toArray

/-- A word of eight bytes. -/
def ofU64 (v : UInt64) : Bytes := (wordBytes 8 v.toNat).toArray

/-- The number that the bytes spell as one word. -/
def toNat (data : Bytes) : Nat := wordValue data.toList

end Bytes

/-! ## 3. Alignment -/

/-- Every artifact, table and payload starts on this boundary. -/
def dataAlignment : Nat := 8

/-- The first multiple of the alignment that is not below `n`. -/
def alignUp (n : Nat) : Nat := (n + (dataAlignment - 1)) / dataAlignment * dataAlignment

theorem le_alignUp (n : Nat) : n ≤ alignUp n := by
  simp only [alignUp, dataAlignment]
  omega

theorem alignUp_lt (n : Nat) : alignUp n < n + dataAlignment := by
  simp only [alignUp, dataAlignment]
  omega

theorem alignUp_mod (n : Nat) : alignUp n % dataAlignment = 0 := by
  simp [alignUp]

/-- The number of zero bytes between `n` and the next boundary. -/
def paddingAfter (n : Nat) : Nat := alignUp n - n

end CodeVault
