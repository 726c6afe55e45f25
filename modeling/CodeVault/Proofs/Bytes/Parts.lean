import CodeVault.Bytes.Lemmas
import CodeVault.Container.Layout
import CodeVault.Text.Terminated

/-!
# Parts of byte strings

What was written one behind the other is found again piece by piece.

* `PartAt data pos part`: `part` stands in `data` from `pos` on; a part that is made of two stands
  there exactly when both do, the second behind the first (`partAt_append`);
* `join` puts pieces one behind the other;
* `padded` fills up to the next boundary: padding behind a boundary depends on the bytes since then
  alone (`paddingAfter_add`).
-/

namespace CodeVault

/-! ## 1. Words -/

theorem toNat_ofNat_of_lt_wordSpace {n : Nat} (h : n < wordSpace) : (UInt32.ofNat n).toNat = n :=
  UInt32.toNat_ofNat_of_lt' h

namespace Bytes

@[simp] theorem size_ofU16 (v : UInt16) : (ofU16 v).size = 2 := by simp [ofU16]

@[simp] theorem size_ofU32 (v : UInt32) : (ofU32 v).size = 4 := by simp [ofU32]

@[simp] theorem size_ofU64 (v : UInt64) : (ofU64 v).size = 8 := by simp [ofU64]

theorem ofNat_toNat_ofU16 (v : UInt16) : UInt16.ofNat (ofU16 v).toNat = v := by
  have h : v.toNat % 256 ^ 2 = v.toNat := Nat.mod_eq_of_lt v.toNat_lt
  simp only [ofU16, toNat, wordValue_wordBytes, h, UInt16.ofNat_toNat]

theorem ofNat_toNat_ofU32 (v : UInt32) : UInt32.ofNat (ofU32 v).toNat = v := by
  have h : v.toNat % 256 ^ 4 = v.toNat := Nat.mod_eq_of_lt v.toNat_lt
  simp only [ofU32, toNat, wordValue_wordBytes, h, UInt32.ofNat_toNat]

theorem ofNat_toNat_ofU64 (v : UInt64) : UInt64.ofNat (ofU64 v).toNat = v := by
  have h : v.toNat % 256 ^ 8 = v.toNat := Nat.mod_eq_of_lt v.toNat_lt
  simp only [ofU64, toNat, wordValue_wordBytes, h, UInt64.ofNat_toNat]

theorem ofNat_toNat_singleton (v : UInt8) : UInt8.ofNat (toNat #[v]) = v := by
  simp [toNat, wordValue]

/-! ## 2. Parts -/

/-- `part` stands in `data` from `pos` on. -/
def PartAt (data : Bytes) (pos : Nat) (part : Bytes) : Prop :=
  ∃ before rest : Bytes, data = before ++ part ++ rest ∧ before.size = pos

theorem partAt_self (data : Bytes) : PartAt data 0 data :=
  ⟨#[], #[], by simp, rfl⟩

theorem PartAt.le {data part : Bytes} {pos : Nat} (h : PartAt data pos part) :
    pos + part.size ≤ data.size := by
  obtain ⟨before, rest, rfl, rfl⟩ := h
  simp only [Array.size_append]
  omega

theorem PartAt.extract {data part : Bytes} {pos : Nat} (h : PartAt data pos part) :
    data.extract pos (pos + part.size) = part := by
  obtain ⟨before, rest, rfl, rfl⟩ := h
  apply Array.toList_inj.1
  simp

/-- **A part is what a slice of its place and size shows.** -/
theorem PartAt.slice? {data part : Bytes} {pos : Nat} (h : PartAt data pos part) :
    data.slice? pos part.size = some part := by
  rw [Bytes.slice?, if_pos h.le, h.extract]

/-- A slice is a part. -/
theorem partAt_of_slice? {data part : Bytes} {pos size : Nat}
    (h : data.slice? pos size = some part) :
    PartAt data pos part := by
  have hsize := size_of_slice? h
  unfold Bytes.slice? at h
  split at h
  · rename_i hle
    simp only [Option.some.injEq] at h
    refine ⟨data.extract 0 pos, data.extract (pos + size) data.size, ?_, ?_⟩
    · subst h
      simp only [Array.extract_append_extract, Nat.zero_min, Nat.le_add_right, Nat.max_eq_right,
        hle, Array.extract_size]
    · simp only [Array.size_extract]
      omega
  · simp at h

/-- Four bytes are a word. -/
theorem ofU32_ofNat_toNat {bytes : Bytes} (h : bytes.size = 4) :
    ofU32 (UInt32.ofNat bytes.toNat) = bytes := by
  have hlength : bytes.toList.length = 4 := by rw [Array.length_toList, h]
  have hlt : wordValue bytes.toList < wordSpace := by
    have := wordValue_lt bytes.toList
    rwa [hlength] at this
  rw [ofU32, toNat, toNat_ofNat_of_lt_wordSpace hlt, ← hlength, wordBytes_wordValue,
    Array.toArray_toList]

/-- Eight bytes are a word of eight. -/
theorem ofU64_ofNat_toNat {bytes : Bytes} (h : bytes.size = 8) :
    ofU64 (UInt64.ofNat bytes.toNat) = bytes := by
  have hlength : bytes.toList.length = 8 := by rw [Array.length_toList, h]
  have hlt : wordValue bytes.toList < addressSpace := by
    have := wordValue_lt bytes.toList
    rwa [hlength] at this
  rw [ofU64, toNat, UInt64.toNat_ofNat_of_lt' hlt, ← hlength, wordBytes_wordValue,
    Array.toArray_toList]

/-- **Where four bytes are left there is a word.** -/
theorem exists_word {data : Bytes} {pos : Nat} (h : pos + 4 ≤ data.size) :
    ∃ word : UInt32, PartAt data pos (ofU32 word) := by
  have hslice : data.slice? pos 4 = some (data.extract pos (pos + 4)) := by
    rw [Bytes.slice?, if_pos h]
  refine ⟨UInt32.ofNat (toNat (data.extract pos (pos + 4))), ?_⟩
  rw [ofU32_ofNat_toNat (size_of_slice? hslice)]
  exact partAt_of_slice? hslice

/-- **A part made of two stands at a place exactly when both do, the second behind the first.** -/
theorem partAt_append {data first second : Bytes} {pos : Nat} :
    PartAt data pos (first ++ second) ↔
      PartAt data pos first ∧ PartAt data (pos + first.size) second := by
  constructor
  · rintro ⟨before, rest, rfl, rfl⟩
    refine ⟨⟨before, second ++ rest, by simp only [Array.append_assoc], rfl⟩,
      ⟨before ++ first, rest, by simp only [Array.append_assoc], by simp⟩⟩
  · rintro ⟨h1, h2⟩
    obtain ⟨before, rest, rfl, rfl⟩ := h1
    obtain ⟨before', rest', heq, hsize⟩ := h2
    refine ⟨before, rest', ?_, rfl⟩
    rw [show before' ++ second ++ rest' = before' ++ (second ++ rest') from Array.append_assoc]
      at heq
    obtain ⟨-, hrest⟩ := Array.append_inj heq (by rw [hsize, Array.size_append])
    rw [hrest]
    simp only [Array.append_assoc]

/-- A part of a part is a part. -/
theorem PartAt.trans {data middle part : Bytes} {pos inner : Nat} (h : PartAt data pos middle)
    (h' : PartAt middle inner part) : PartAt data (pos + inner) part := by
  obtain ⟨before, rest, rfl, rfl⟩ := h'
  exact (partAt_append.1 (partAt_append.1 h).1).2

/-- What stands in bytes stands there with more bytes behind. -/
theorem PartAt.append_right {data part : Bytes} {pos : Nat} (h : PartAt data pos part)
    (more : Bytes) : PartAt (data ++ more) pos part := by
  have := (partAt_append.1 (partAt_self (data ++ more))).1.trans h
  rwa [Nat.zero_add] at this

/-- Taking bytes back leaves what stood before them. -/
theorem PartAt.take {data part : Bytes} {n : Nat} (h : PartAt data 0 part) (hle : part.size ≤ n) :
    PartAt (data.extract 0 n) 0 part := by
  obtain ⟨before, rest, rfl, hzero⟩ := h
  have hempty : before = #[] := Array.eq_empty_of_size_eq_zero hzero
  subst hempty
  refine ⟨#[], rest.extract 0 (n - part.size), ?_, rfl⟩
  rw [Array.empty_append, Array.extract_append, Array.extract_eq_self_of_le hle, Nat.zero_sub]

/-- The bytes of a part are those of the data. -/
theorem PartAt.getElem? {data part : Bytes} {pos i : Nat} (h : PartAt data pos part)
    (hi : i < part.size) :
    data[pos + i]? = part[i]? := by
  obtain ⟨before, rest, rfl, rfl⟩ := h
  rw [Array.append_assoc, Array.getElem?_append_right (Nat.le_add_right _ _),
    Nat.add_sub_cancel_left, Array.getElem?_append_left hi]

theorem readAt_of_partAt {data part : Bytes} {pos : Nat} (h : PartAt data pos part) :
    data.readAt pos part.size = .ok part := by
  rw [Bytes.readAt, h.slice?]

/-- **Writing over a part puts the patch in its place.** -/
theorem overwrite_between {before part rest patch : Bytes} (h : patch.size = part.size) :
    (before ++ part ++ rest).overwrite before.size patch = before ++ patch ++ rest := by
  have hfront : (before ++ part ++ rest).extract 0 before.size = before := by simp
  have hback : (before ++ part ++ rest).extract (before.size + part.size)
      (before ++ part ++ rest).size = rest := by simp
  rw [overwrite, h, hfront, hback]

/-- The bytes of a patch stand in its place, and all others stay. -/
theorem getElem?_overwrite {data patch : Bytes} {start : Nat} (h : start + patch.size ≤ data.size)
    (i : Nat) :
    (data.overwrite start patch)[i]? =
      if i < start then data[i]? else if i < start + patch.size then
        patch[i - start]? else data[i]? := by
  have hfront : (data.extract 0 start).size = start := by
    rw [Array.size_extract]
    omega
  have hpatched : (data.extract 0 start ++ patch).size = start + patch.size := by
    rw [Array.size_append, hfront]
  rw [overwrite, Array.getElem?_append, hpatched]
  by_cases hbefore : i < start
  · rw [if_pos (by omega), if_pos hbefore, Array.getElem?_append_left (by omega),
      Array.getElem?_extract]
    rw [if_pos (by omega), Nat.zero_add]
  · rw [if_neg hbefore]
    by_cases hinside : i < start + patch.size
    · rw [if_pos hinside, if_pos hinside, Array.getElem?_append_right (by omega), hfront]
    · rw [if_neg hinside, if_neg hinside, Array.getElem?_extract]
      by_cases hend : i < data.size
      · rw [if_pos (by omega)]
        exact congrArg (data[·]?) (by omega)
      · rw [if_neg (by omega), Array.getElem?_eq_none (by omega)]

/-- Bytes beside a patch are as before. -/
theorem getElem?_overwrite_outside {data patch : Bytes} {start i : Nat}
    (h : start + patch.size ≤ data.size) (hi : i < start ∨ start + patch.size ≤ i) :
    (data.overwrite start patch)[i]? = data[i]? := by
  rw [getElem?_overwrite h]
  rcases hi with hbefore | hbehind
  · rw [if_pos hbefore]
  · rw [if_neg (by omega), if_neg (by omega)]

/-- A patch stands in its place. -/
theorem partAt_overwrite {data patch : Bytes} {start : Nat} (h : start ≤ data.size) :
    PartAt (data.overwrite start patch) start patch := by
  refine ⟨data.extract 0 start, data.extract (start + patch.size) data.size, rfl, ?_⟩
  rw [Array.size_extract, Nat.min_eq_left h, Nat.sub_zero]

/-- The bytes of a slice are those of the data. -/
theorem getElem?_of_slice? {data part : Bytes} {start size : Nat}
    (h : data.slice? start size = some part) (i : Nat) :
    part[i]? = if i < size then data[start + i]? else none := by
  have hsize := size_of_slice? h
  by_cases hi : i < size
  · have hle := slice?_isSome.1 (Option.isSome_of_eq_some h)
    rw [slice?, if_pos hle] at h
    cases h
    rw [if_pos hi, Array.getElem?_extract, if_pos (by omega)]
  · rw [if_neg hi, Array.getElem?_eq_none (by omega)]

/-- A byte that is not found is not there. -/
theorem findByte?_eq_none {data : Bytes} {byte : UInt8} {pos : Nat}
    (h : data.findByte? byte pos = none) : ∀ i, pos ≤ i → data[i]? ≠ some byte := by
  fun_induction findByte? data byte pos with
  | case1 => simp at h
  | case2 pos hlt hne ih =>
    intro i hle
    rcases Nat.eq_or_lt_of_le hle with rfl | hgt
    · simp [hlt, hne]
    · exact ih h i hgt
  | case3 pos hge =>
    intro i hle
    rw [Array.getElem?_eq_none (by omega)]
    simp

/-! ## 3. Pieces -/

/-- Pieces one behind the other. -/
def join (pieces : List Bytes) : Bytes := pieces.foldr (· ++ ·) #[]

@[simp] theorem join_nil : join [] = #[] := rfl

@[simp] theorem join_cons (piece : Bytes) (pieces : List Bytes) :
    join (piece :: pieces) = piece ++ join pieces := rfl

@[simp] theorem join_append (pieces more : List Bytes) :
    join (pieces ++ more) = join pieces ++ join more := by
  induction pieces with
  | nil => simp
  | cons piece pieces ih => simp [ih]

/-- Pieces of at least `least` bytes each have that many bytes together. -/
theorem length_mul_le_size_join {least : Nat} {pieces : List Bytes}
    (h : ∀ piece ∈ pieces, least ≤ piece.size) : pieces.length * least ≤ (join pieces).size := by
  induction pieces with
  | nil => simp
  | cons piece pieces ih =>
    have h1 := h piece List.mem_cons_self
    have h2 := ih fun other hmem => h other (List.mem_cons_of_mem piece hmem)
    simp only [List.length_cons, join_cons, Array.size_append, Nat.succ_mul]
    omega

theorem size_join_map {α : Type} {encode : α → Bytes} {size : Nat} (h : ∀ a, (encode a).size = size)
    (things : List α) : (join (things.map encode)).size = size * things.length := by
  induction things with
  | nil => rfl
  | cons thing things ih =>
    simp only [List.map_cons, join_cons, Array.size_append, h, ih, List.length_cons, Nat.mul_succ]
    omega

end Bytes

/-! ## 4. Padding -/

theorem alignUp_eq (n : Nat) : alignUp n = n + paddingAfter n := by
  have := le_alignUp n
  simp only [paddingAfter]
  omega

/-- Padding depends only on the bytes since a boundary. -/
theorem paddingAfter_add {start n : Nat} (h : start % dataAlignment = 0) :
    paddingAfter (start + n) = paddingAfter n := by
  simp only [paddingAfter, alignUp, dataAlignment] at *
  omega

theorem alignUp_add {start n : Nat} (h : start % dataAlignment = 0) :
    alignUp (start + n) = start + alignUp n := by
  simp only [alignUp, dataAlignment] at *
  omega

namespace Container

@[simp] theorem size_padded (part : Bytes) : (padded part).size = alignUp part.size := by
  simp only [padded, Array.size_append, Bytes.size_zeros, alignUp_eq]

end Container

end CodeVault
