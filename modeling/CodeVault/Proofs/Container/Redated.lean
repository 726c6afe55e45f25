import CodeVault.Proofs.Container.ReadBack

/-!
# Containers of another time

Of the time at which it was made, a container has eight bytes in its header.

* `redated` puts another time there, and leaves the size and all other bytes as they are
  (`getElem?_redated`);
* **the container of the same strings and the same merge at another time is the container with that
  time** (`build_again`), whatever the merge left out.
-/

namespace CodeVault

open Bytes

/-! ## 1. Another time in the same bytes -/

namespace Header

/-- The bytes of a container with another time of creation in its header. -/
def redated (image : Bytes) (time : UInt64) : Bytes := image.overwrite createdAtOffset (ofU64 time)

variable {image : Bytes}

theorem size_redated (h : encodedSize ≤ image.size) (time : UInt64) :
    (redated image time).size = image.size := by
  have hroom : createdAtOffset + (ofU64 time).size ≤ image.size := by
    rw [size_ofU64]
    exact Nat.le_trans (by decide) h
  exact size_overwrite hroom

/-- **Only the eight bytes of the time change.** -/
theorem getElem?_redated (h : encodedSize ≤ image.size) (time : UInt64) {i : Nat}
    (hi : i < createdAtOffset ∨ createdAtOffset + 8 ≤ i) :
    (redated image time)[i]? = image[i]? := by
  have hroom : createdAtOffset + (ofU64 time).size ≤ image.size := by
    rw [size_ofU64]
    exact Nat.le_trans (by decide) h
  rw [redated, getElem?_overwrite hroom, size_ofU64]
  rcases hi with hbefore | hbehind
  · rw [if_pos hbefore]
  · rw [if_neg (by omega), if_neg (by omega)]

/-- The bytes of a header before its time of creation, and behind it. -/
theorem encode_parts (header : Header) :
    ∃ front back : Bytes, front.size = createdAtOffset ∧
      ∀ time, { header with createdAt := time }.encode = front ++ ofU64 time ++ back := by
  refine ⟨ofU32 magic ++ ofU32 header.version ++ ofU32 header.size ++ ofU32 0,
    (header.words.flatMap fun w => wordBytes 4 w.toNat).toArray, ?_,
    fun time => by simp only [encode, words]⟩
  simp only [Array.size_append, size_ofU32, createdAtOffset]

/-- **The bytes of a header of another time, with whatever is behind it.** -/
theorem encode_redated (header : Header) (time : UInt64) (rest : Bytes) :
    { header with createdAt := time }.encode ++ rest = redated (header.encode ++ rest) time := by
  obtain ⟨front, back, hfront, hencode⟩ := header.encode_parts
  have hbefore : header.encode = front ++ ofU64 header.createdAt ++ back := hencode header.createdAt
  have hsame : (ofU64 time).size = (ofU64 header.createdAt).size := by rw [size_ofU64, size_ofU64]
  have hpatched : (front ++ ofU64 header.createdAt ++ (back ++ rest)).overwrite front.size
      (ofU64 time) = front ++ ofU64 time ++ (back ++ rest) := overwrite_between hsame
  have hassoc : ∀ middle, front ++ middle ++ back ++ rest = front ++ middle ++ (back ++ rest) :=
    fun middle => Array.append_assoc
  rw [redated, hencode, hbefore, ← hfront, hassoc, hassoc, hpatched]

end Header

/-! ## 2. The same container at another time -/

namespace Container

variable {strings : List CText} {merged other : Merged} {fingerprint : Fingerprint} {image : Bytes}

theorem build_redated {before : UInt64} (h : build strings merged fingerprint before = .ok image)
    (time : UInt64) :
    build strings merged fingerprint time = .ok (Header.redated image time) := by
  obtain ⟨header, _, rest, rfl, -, hbuild⟩ := built_of_build h
  rw [hbuild, Header.encode_redated]

/-- **The container of a merge is built again, at another time, from a merge that holds the
    same.** -/
theorem build_again {before : UInt64} (h : build strings merged fingerprint before = .ok image)
    (halike : merged.Alike other) (time : UInt64) :
    build strings other fingerprint time = .ok (Header.redated image time) := by
  obtain ⟨skipped, rfl⟩ := halike
  exact build_redated h time

end Container

end CodeVault
