import CodeVault.Proofs.Index.Flags

/-!
# How many entries have a flag

Entries are counted in both populations, by whatever is asked of an entry (`EntryIndex.count`).

* a flag that is set counts for the one entry that gets it (`count_flag`), and where nothing is
  asked of that flag, no count changes (`countP_flag_of_same`);
* **the entries that an invalidation takes out of use are as many as it answers**
  (`outOfUse_invalidate`).
-/

namespace CodeVault

variable {p : Entry → Bool}

/-- An entry in the place of another counts for it. -/
theorem Entry.countP_setIfInBounds {entries : Array Entry} {i : Nat} {old : Entry} (entry : Entry)
    (hold : entries[i]? = some old) :
    (entries.setIfInBounds i entry).toList.countP p + (p old).toNat =
      entries.toList.countP p + (p entry).toNat := by
  obtain ⟨hlt, hget⟩ := Array.getElem?_eq_some_iff.1 hold
  have hlt' : i < entries.toList.length := by simpa using hlt
  have hget' : entries.toList[i] = old := by simpa using hget
  have hpos : p old = true → 0 < entries.toList.countP p := fun h =>
    List.countP_pos_iff.2 ⟨old, by rw [← hget']; exact List.getElem_mem hlt', h⟩
  rw [Array.toList_setIfInBounds, List.countP_set hlt', hget']
  cases hp : p old <;> cases p entry <;>
    simp only [hp, true_implies, if_true, if_false, Bool.false_eq_true, Bool.toNat_true,
      Bool.toNat_false] at hpos ⊢ <;>
    omega

namespace EntryIndex

variable {index : EntryIndex} {id : EntryId} {entry : Entry} {f : EntryFlags → EntryFlags}

/-! ## 1. Counting -/

/-- The number of entries of which something is true. -/
def count (index : EntryIndex) (p : Entry → Bool) : Nat :=
  index.loaded.toList.countP p + index.stored.toList.countP p

/-- The number of entries that may not be entered. -/
def outOfUse (index : EntryIndex) : Nat := index.count (·.flags.notEntrant)

theorem count_le_size (index : EntryIndex) (p : Entry → Bool) : index.count p ≤ index.size := by
  have hloaded := List.countP_le_length (p := p) (l := index.loaded.toList)
  have hstored := List.countP_le_length (p := p) (l := index.stored.toList)
  rw [Array.length_toList] at hloaded hstored
  exact Nat.add_le_add hloaded hstored

/-- An entry may be entered or not. -/
theorem entrantCount_add_outOfUse (index : EntryIndex) :
    index.entrantCount + index.outOfUse = index.size := by
  have hsplit : ∀ entries : List Entry,
      entries.countP (·.isEntrant) + entries.countP (·.flags.notEntrant) = entries.length := by
    intro entries
    rw [List.length_eq_countP_add_countP Entry.isEntrant (l := entries)]
    congr 1
    exact List.countP_congr fun entry _ => by simp [Entry.isEntrant]
  have hloaded := hsplit index.loaded.toList
  have hstored := hsplit index.stored.toList
  rw [Array.length_toList] at hloaded hstored
  simp only [entrantCount, outOfUse, count, size]
  omega

/-- An entry that is added counts for itself. -/
theorem count_push (index : EntryIndex) (entry : Entry) :
    count { index with stored := index.stored.push entry } p = index.count p + (p entry).toNat := by
  simp only [count, Array.toList_push, List.countP_append, List.countP_singleton]
  cases p entry <;> rfl

/-! ## 2. Flags -/

theorem flag_loaded {i : Nat} (h : index.get? (.loaded i) = some entry) :
    index.flag (.loaded i) f =
      { index with
        loaded := index.loaded.setIfInBounds i { entry with flags := f entry.flags } } := by
  simp only [flag, h, put]

theorem flag_stored {i : Nat} (h : index.get? (.stored i) = some entry) :
    index.flag (.stored i) f =
      { index with
        stored := index.stored.setIfInBounds i { entry with flags := f entry.flags } } := by
  simp only [flag, h, put]

theorem flag_none (h : index.get? id = none) : index.flag id f = index := by
  simp only [flag, h]

/-- **The flags of one entry count for that entry.** -/
theorem count_flag (h : index.get? id = some entry) :
    (index.flag id f).count p + (p entry).toNat =
      index.count p + (p { entry with flags := f entry.flags }).toNat := by
  cases id with
  | loaded i =>
    have hset := Entry.countP_setIfInBounds (p := p) { entry with flags := f entry.flags } h
    rw [flag_loaded h]
    simp only [count]
    omega
  | stored i =>
    have hset := Entry.countP_setIfInBounds (p := p) { entry with flags := f entry.flags } h
    rw [flag_stored h]
    simp only [count]
    omega

/-- **No count changes in either population where nothing is asked of the flags that change.** -/
theorem countP_flag_of_same
    (hsame : ∀ entry : Entry, p { entry with flags := f entry.flags } = p entry)
    (index : EntryIndex) (id : EntryId) :
    (index.flag id f).loaded.toList.countP p = index.loaded.toList.countP p ∧
      (index.flag id f).stored.toList.countP p = index.stored.toList.countP p := by
  cases hget : index.get? id with
  | none =>
    rw [flag_none hget]
    exact ⟨rfl, rfl⟩
  | some entry =>
    cases id with
    | loaded i =>
      have hset := Entry.countP_setIfInBounds (p := p) { entry with flags := f entry.flags } hget
      rw [hsame] at hset
      rw [flag_loaded hget]
      exact ⟨Nat.add_right_cancel hset, rfl⟩
    | stored i =>
      have hset := Entry.countP_setIfInBounds (p := p) { entry with flags := f entry.flags } hget
      rw [hsame] at hset
      rw [flag_stored hget]
      exact ⟨rfl, Nat.add_right_cancel hset⟩

theorem count_flag_of_same
    (hsame : ∀ entry : Entry, p { entry with flags := f entry.flags } = p entry)
    (index : EntryIndex) (id : EntryId) :
    (index.flag id f).count p = index.count p := by
  obtain ⟨hloaded, hstored⟩ := countP_flag_of_same hsame index id
  rw [count, count, hloaded, hstored]

/-! ## 3. Invalidating -/

theorem size_invalidate (index : EntryIndex) (id : EntryId) :
    (index.invalidate id).2.size = index.size := by
  rw [size, size, size_stored_invalidate, (index.evolves_invalidate id).loaded]

/-- The entries that are not entrant any more are as many as an invalidation answers. -/
theorem entrantCount_invalidate (index : EntryIndex) (id : EntryId) :
    (index.invalidate id).2.entrantCount + (index.invalidate id).1 = index.entrantCount := by
  fun_induction invalidate index id with
  | case1 => rfl
  | case2 index id entry hget hentrant => exact entrantCount_leave hget hentrant
  | case3 index id entry hget hentrant next _ changed after heq ih =>
    rw [heq] at ih
    have hleave := entrantCount_leave hget hentrant
    simp only at ih ⊢
    omega
  | case4 => rfl

/-- **The entries that an invalidation takes out of use are as many as it answers.** -/
theorem outOfUse_invalidate (index : EntryIndex) (id : EntryId) :
    (index.invalidate id).2.outOfUse = index.outOfUse + (index.invalidate id).1 := by
  have hchanged := index.entrantCount_invalidate id
  have hbefore := index.entrantCount_add_outOfUse
  have hafter := (index.invalidate id).2.entrantCount_add_outOfUse
  rw [size_invalidate] at hafter
  omega

/-- An invalidation changes no count in which nothing is asked of being entrant. -/
theorem countP_invalidate (index : EntryIndex) (id : EntryId)
    (hsame : ∀ entry : Entry,
      p { entry with flags := { entry.flags with notEntrant := true } } = p entry) :
    (index.invalidate id).2.loaded.toList.countP p = index.loaded.toList.countP p ∧
      (index.invalidate id).2.stored.toList.countP p = index.stored.toList.countP p := by
  fun_induction invalidate index id with
  | case1 => exact ⟨rfl, rfl⟩
  | case2 index id =>
    exact countP_flag_of_same (f := ({ · with notEntrant := true })) hsame index id
  | case3 index id entry _ _ next _ changed after heq ih =>
    rw [heq] at ih
    obtain ⟨hloaded, hstored⟩ :=
      countP_flag_of_same (f := ({ · with notEntrant := true })) hsame index id
    exact ⟨ih.1.trans hloaded, ih.2.trans hstored⟩
  | case4 => exact ⟨rfl, rfl⟩

end EntryIndex

end CodeVault
