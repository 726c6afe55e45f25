import CodeVault.Proofs.Index.Search

/-!
# What an accepted search table lists

A table is accepted with as many keys as there are entries, in order, each at an entry with its id.
Nothing asks whether two keys are at the same entry.

* an accepted table finds what it lists: **a query is answered exactly when a listed entry answers
  it** (`SearchTable.find?_of_validate`);
* as there are as many keys as entries, **every entry is listed exactly when no two keys are at the
  same place** (`SearchTable.lists_all_iff`). Where two are, some entry is not listed, and whatever
  it alone answers is not found (`EntryIndex.find_iff_listed`).
-/

namespace CodeVault

namespace SearchTable

variable {keys : Array SearchKey} {entries : Array Entry}

/-- Some key of the table is at a place. -/
def Lists (keys : Array SearchKey) (place : Nat) : Prop :=
  ∃ key ∈ keys.toList, key.index.toNat = place

theorem lists_iff_mem {place : Nat} :
    Lists keys place ↔ place ∈ keys.toList.map (·.index.toNat) := List.mem_map.symm

/-- No two keys are at the same place. -/
def ListsOnce (keys : Array SearchKey) : Prop := (keys.toList.map (·.index)).Nodup

theorem listsOnce_iff : ListsOnce keys ↔ (keys.toList.map (·.index.toNat)).Nodup := by
  have hplaces : keys.toList.map (·.index.toNat) =
      (keys.toList.map (·.index)).map UInt32.toNat := by
    rw [List.map_map]
    rfl
  rw [hplaces, List.nodup_map_iff fun a b => UInt32.toNat_inj.1]
  rfl

/-- **An accepted table lists every entry exactly when no two of its keys are at the same
    place.** -/
theorem lists_all_iff (h : validate keys entries = .ok ()) :
    (∀ place < entries.size, Lists keys place) ↔ ListsOnce keys := by
  obtain ⟨hcount, -, hkeys⟩ := validate_eq_ok.1 h
  have hlength : (keys.toList.map (·.index.toNat)).length = entries.size := by
    rw [List.length_map, Array.length_toList, hcount]
  have hinside : ∀ place ∈ keys.toList.map (·.index.toNat), place < entries.size := by
    intro place hmem
    obtain ⟨key, hkey, rfl⟩ := List.mem_map.1 hmem
    obtain ⟨entry, hentry, -⟩ := hkeys key hkey
    exact (Array.getElem?_eq_some_iff.1 hentry).1
  rw [listsOnce_iff, ← covers_iff_nodup hlength hinside]
  simp only [lists_iff_mem]

/-- **Over an accepted table a query is answered exactly when an entry that is listed answers it**,
    and by such an entry. -/
theorem find?_of_validate (h : validate keys entries = .ok ()) (query : Query) :
    ((find? keys entries query).isSome ↔
      ∃ place entry, Lists keys place ∧ entries[place]? = some entry ∧ entry.answers query = true) ∧
    ∀ index, find? keys entries query = some index →
      Lists keys index.toNat ∧ ∃ entry, entries[index.toNat]? = some entry ∧
        entry.answers query = true := by
  obtain ⟨-, hsorted, hkeys⟩ := validate_eq_ok.1 h
  -- A key matches exactly if the entry at its place answers: the entry has the id of the key.
  have hmatches : ∀ key ∈ keys.toList, keyMatches entries query key = true ↔
      ∃ entry, entries[key.index.toNat]? = some entry ∧ entry.answers query = true := by
    intro key hmem
    obtain ⟨entry, hentry, hid⟩ := hkeys key hmem
    simp only [keyMatches, keyAnswers, hentry, Bool.and_eq_true, beq_iff_eq, Option.some.injEq,
      exists_eq_left']
    exact ⟨fun hboth => hboth.2,
      fun hanswers => ⟨hid.symm.trans (id_of_answers hanswers), hanswers⟩⟩
  rw [find?_of_sorted hsorted]
  constructor
  · rw [Option.isSome_map, List.getLast?_filter, List.find?_isSome]
    constructor
    · rintro ⟨key, hmem, hkey⟩
      have hmem := List.mem_reverse.1 hmem
      obtain ⟨entry, hentry, hanswers⟩ := (hmatches key hmem).1 hkey
      exact ⟨key.index.toNat, entry, ⟨key, hmem, rfl⟩, hentry, hanswers⟩
    · rintro ⟨_, entry, ⟨key, hmem, rfl⟩, hentry, hanswers⟩
      exact ⟨key, List.mem_reverse.2 hmem, (hmatches key hmem).2 ⟨entry, hentry, hanswers⟩⟩
  · intro index hfound
    obtain ⟨key, hlast, rfl⟩ := Option.map_eq_some_iff.1 hfound
    obtain ⟨hmem, hkey⟩ := List.mem_filter.1 (List.mem_of_getLast? hlast)
    exact ⟨⟨key, hmem, rfl⟩, (hmatches key hmem).1 hkey⟩

end SearchTable

namespace EntryIndex

open SearchTable

variable {entries : Array Entry} {search : Array SearchKey} {preload : Array UInt32}
  {index : EntryIndex}

/-- **What an index is made of**: an accepted table, and preload places that are inside. -/
theorem ofLoaded_eq_ok : ofLoaded entries search preload = .ok index ↔
    validate search entries = .ok () ∧ (∀ place ∈ preload, place.toNat < entries.size) ∧
      index = ⟨entries, search, preload, #[]⟩ := by
  have hpreload : preload.find? (fun place => entries.size ≤ place.toNat) = none ↔
      ∀ place ∈ preload, place.toNat < entries.size := by
    simp only [Array.find?_eq_none, decide_eq_true_eq, Nat.not_le]
  rw [ofLoaded, except_bind_eq_ok, ← hpreload]
  constructor
  · rintro ⟨⟨⟩, hvalid, hrest⟩
    split at hrest
    · cases hrest
    · rename_i hnone
      cases hrest
      exact ⟨hvalid, hnone, rfl⟩
  · rintro ⟨hvalid, hnone, rfl⟩
    refine ⟨(), hvalid, ?_⟩
    simp only [hnone]
    rfl

/-- **An accepted index finds what its table lists, and the table may leave entries out.** A query
    is answered exactly when an entry that some key is at answers it, and what is found is such an
    entry. All entries are listed exactly when no two keys are at the same place, and then a query
    is answered exactly when some entry answers it. -/
theorem find_iff_listed (h : ofLoaded entries search preload = .ok index) :
    (∀ query, (index.find? query).isSome ↔
      ∃ place entry, Lists search place ∧ entries[place]? = some entry ∧
        entry.answers query = true) ∧
    (∀ query id, index.find? query = some id →
      ∃ place entry, id = .loaded place ∧ Lists search place ∧ entries[place]? = some entry ∧
        entry.answers query = true) ∧
    ((∀ place < entries.size, Lists search place) ↔ ListsOnce search) ∧
    (ListsOnce search → ∀ query, (index.find? query).isSome ↔
      ∃ entry ∈ entries, entry.answers query = true) := by
  obtain ⟨hvalid, -, rfl⟩ := ofLoaded_eq_ok.1 h
  have hfind : ∀ query, ((EntryIndex.mk entries search preload #[]).find? query).isSome ↔
      ∃ place entry, Lists search place ∧ entries[place]? = some entry ∧
      entry.answers query = true := by
    intro query
    rw [find?, Option.isSome_map]
    exact (find?_of_validate hvalid query).1
  refine ⟨hfind, fun query id hfound => ?_, lists_all_iff hvalid, fun honce query => ?_⟩
  · obtain ⟨place, hplace, rfl⟩ := Option.map_eq_some_iff.1 hfound
    obtain ⟨hlisted, entry, hentry, hanswers⟩ := (find?_of_validate hvalid query).2 place hplace
    exact ⟨place.toNat, entry, rfl, hlisted, hentry, hanswers⟩
  · rw [hfind]
    constructor
    · rintro ⟨place, entry, -, hentry, hanswers⟩
      exact ⟨entry, Array.mem_of_getElem? hentry, hanswers⟩
    · rintro ⟨entry, hmem, hanswers⟩
      obtain ⟨place, hentry⟩ := Array.mem_iff_getElem?.1 hmem
      have hlt := (Array.getElem?_eq_some_iff.1 hentry).1
      exact ⟨place, entry, (lists_all_iff hvalid).2 honce place hlt, hentry, hanswers⟩

/-! An example: both keys are at the first of two entries with one id, so that the second is
hidden. -/

/-- A stub and an adapter with one id. -/
def namesakes : Array Entry := #[Entry.blank .stub 1, Entry.blank .adapter 1]

/-- Two keys at the same place. -/
def repeatedKeys : Array SearchKey := #[⟨1, 0⟩, ⟨1, 0⟩]

theorem find_hides_namesake :
    ofLoaded namesakes repeatedKeys #[] = .ok ⟨namesakes, repeatedKeys, #[], #[]⟩ ∧
      (∃ entry ∈ namesakes, entry.answers ⟨.adapter, 1, 0, 0⟩ = true) ∧
      (EntryIndex.mk namesakes repeatedKeys #[] #[]).find? ⟨.adapter, 1, 0, 0⟩ = none := by
  have hloaded : ofLoaded namesakes repeatedKeys #[] = .ok ⟨namesakes, repeatedKeys, #[], #[]⟩ := by
    rfl
  refine ⟨hloaded, ⟨_, Array.mem_of_getElem? (i := 1) rfl, by decide⟩, ?_⟩
  refine Option.not_isSome_iff_eq_none.1 fun hfound => ?_
  obtain ⟨place, entry, ⟨key, hmem, rfl⟩, hentry, hanswers⟩ :=
    ((find_iff_listed hloaded).1 _).1 hfound
  -- Both keys are at the stub, which answers no query for an adapter.
  obtain rfl : key = ⟨1, 0⟩ := by simpa [repeatedKeys] using hmem
  cases hentry
  cases hanswers

end EntryIndex

end CodeVault
