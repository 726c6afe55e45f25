import CodeVault.Proofs.Index.SearchTable
import CodeVault.Proofs.Lists

/-!
# What the search finds

The search halves its way to the last key with an id, and looks at the keys with that id from there.

* the halving keeps a split of the keys into those that are at most the id and those that are
  greater (`Splits`), and ends where they meet (`splits_countAtMost`);
* **in sorted keys the search finds the last key whose entry answers** (`find?_of_sorted`);
* sorting keeps the order of the keys with one id (`filter_sort`), so that **over the sorted keys of
  a list of entries the search finds what a scan of the entries finds**, the last one that answers
  (`find?_keysOf`).
-/

namespace CodeVault.SearchTable

variable {keys : Array SearchKey} {entries : Array Entry} {id : UInt32}

/-! ## 1. Halving -/

/-- Keys before `low` are at most `id`, and keys from `high` on are greater. -/
structure Splits (keys : Array SearchKey) (id : UInt32) (low high : Nat) : Prop where
  low_le : low ≤ high
  high_le : high ≤ keys.size
  before : ∀ i key, i < low → keys[i]? = some key → key.id ≤ id
  behind : ∀ i key, high ≤ i → keys[i]? = some key → id < key.id

/-- Later keys do not have smaller ids. -/
theorem id_le_of_sorted (hsorted : keys.toList.Pairwise fun a b => a.id ≤ b.id) {i j : Nat}
    {a b : SearchKey} (hij : i ≤ j) (ha : keys[i]? = some a) (hb : keys[j]? = some b) :
    a.id ≤ b.id := by
  rw [← Array.getElem?_toList] at ha hb
  obtain ⟨hi, rfl⟩ := List.getElem?_eq_some_iff.1 ha
  obtain ⟨hj, rfl⟩ := List.getElem?_eq_some_iff.1 hb
  rcases Nat.eq_or_lt_of_le hij with rfl | hlt
  · exact UInt32.le_refl _
  · exact List.pairwise_iff_getElem.1 hsorted i j hi hj hlt

/-- **Halving keeps the split**, and ends where the keys that are at most the id meet the greater
    ones. -/
theorem Splits.halved {low high : Nat} (hsorted : keys.toList.Pairwise fun a b => a.id ≤ b.id)
    (h : Splits keys id low high) :
    Splits keys id (countAtMost keys id low high) (countAtMost keys id low high) := by
  fun_induction countAtMost keys id low high with
  | case1 low high hlt middle key hkey hle ih =>
    -- Everything up to the middle is at most the id.
    refine ih ⟨by omega, h.high_le, fun i other hi hother => ?_, h.behind⟩
    exact UInt32.le_trans (id_le_of_sorted hsorted (by omega) hother hkey) hle
  | case2 low high hlt middle key hkey hnot ih =>
    -- Everything from the middle on is greater.
    refine ih ⟨by omega, by have := h.high_le; omega, h.before, fun i other hi hother => ?_⟩
    exact UInt32.lt_of_lt_of_le (UInt32.not_le.1 hnot) (id_le_of_sorted hsorted hi hkey hother)
  | case3 low high hlt middle hnone ih =>
    have := Array.getElem?_eq_none_iff.1 hnone
    have := h.high_le
    omega
  | case4 low high hnot =>
    obtain rfl : low = high := Nat.le_antisymm h.low_le (Nat.not_lt.1 hnot)
    exact h

theorem splits_countAtMost (hsorted : keys.toList.Pairwise fun a b => a.id ≤ b.id) (id : UInt32) :
    Splits keys id (countAtMost keys id 0 keys.size) (countAtMost keys id 0 keys.size) := by
  refine Splits.halved hsorted
    ⟨Nat.zero_le _, Nat.le_refl _, fun i key hi => absurd hi (Nat.not_lt_zero i),
    fun i key hi hkey => ?_⟩
  have := (Array.getElem?_eq_some_iff.1 hkey).1
  omega

/-- Keys on both sides of a split. -/
theorem Splits.parts {count : Nat} (h : Splits keys id count count) :
    (∀ key ∈ keys.toList.take count, key.id ≤ id) ∧ ∀ key ∈ keys.toList.drop count,
      id < key.id := by
  constructor
  · intro key hmem
    obtain ⟨i, hi⟩ := List.mem_iff_getElem?.1 hmem
    rw [List.getElem?_take] at hi
    split at hi
    · rename_i hlt
      exact h.before i key hlt (by rwa [← Array.getElem?_toList])
    · cases hi
  · intro key hmem
    obtain ⟨i, hi⟩ := List.mem_iff_getElem?.1 hmem
    rw [List.getElem?_drop, Array.getElem?_toList] at hi
    exact h.behind _ key (Nat.le_add_right _ _) hi

/-- The place that is found is the last one of those that are at most the id. -/
theorem lastOf?_eq_some {hit : Nat} (h : lastOf? keys id = some hit) :
    hit + 1 = countAtMost keys id 0 keys.size := by
  unfold lastOf? at h
  split at h
  · cases h
  · rename_i count hcount
    split at h
    · split at h
      · cases h
        exact hcount.symm
      · cases h
    · cases h

/-- **No place is found only where no key has the id.** -/
theorem lastOf?_eq_none (hsorted : keys.toList.Pairwise fun a b => a.id ≤ b.id)
    (h : lastOf? keys id = none) :
    ∀ key ∈ keys.toList, key.id ≠ id := by
  have hsplit := splits_countAtMost hsorted id
  intro key hmem heq
  obtain ⟨i, hi⟩ := List.mem_iff_getElem?.1 hmem
  rw [Array.getElem?_toList] at hi
  have hlt : i < countAtMost keys id 0 keys.size := by
    refine Nat.not_le.1 fun hle => ?_
    have := hsplit.behind i key hle hi
    rw [heq] at this
    exact UInt32.lt_irrefl _ this
  unfold lastOf? at h
  split at h
  · omega
  · rename_i count hcount
    split at h
    · rename_i last hlast
      -- The last of the keys that are at most the id is not smaller than the key at hand.
      have hge : key.id ≤ last.id := id_le_of_sorted hsorted (by omega) hi hlast
      have hle : last.id ≤ id := hsplit.before count last (by omega) hlast
      rw [if_pos (UInt32.le_antisymm hle (heq ▸ hge))] at h
      cases h
    · rename_i hnone
      have := Array.getElem?_eq_none_iff.1 hnone
      have := hsplit.high_le
      omega

/-! ## 2. Keys with one id -/

/-- Whether a key has the id of a query and its entry answers. -/
def keyMatches (entries : Array Entry) (query : Query) (key : SearchKey) : Bool :=
  key.id == query.id && keyAnswers entries query key

/-- Among keys that descend from an id, those with the id come first. -/
theorem find?_takeWhile_of_descending {descending : List SearchKey} (p : SearchKey → Bool)
    (hsorted : descending.Pairwise fun a b => b.id ≤ a.id) (hle : ∀ key ∈ descending, key.id ≤ id) :
    (descending.takeWhile (·.id == id)).find? p = descending.find? fun key => key.id == id &&
      p key := by
  induction descending with
  | nil => rfl
  | cons key rest ih =>
    obtain ⟨hfirst, hrest⟩ := List.pairwise_cons.1 hsorted
    have hnext := ih hrest fun other hmem => hle other (List.mem_cons_of_mem _ hmem)
    by_cases hsame : key.id = id
    · simp only [List.takeWhile_cons, hsame, beq_self_eq_true, if_true, List.find?_cons,
        Bool.true_and, hnext]
    · -- What follows a smaller id is smaller.
      have hsmaller : ∀ other ∈ rest, other.id ≠ id := fun other hmem heq =>
        hsame (UInt32.le_antisymm (hle key List.mem_cons_self) (heq ▸ hfirst other hmem))
      have hnone : rest.find? (fun key => key.id == id && p key) = none :=
        List.find?_eq_none.2 fun other hmem => by simp [hsmaller other hmem]
      simp only [List.takeWhile_cons, List.find?_cons, beq_false_of_ne hsame, Bool.false_and, hnone]
      rfl

/-- **In sorted keys the search finds the last key that has the id and whose entry answers.** -/
theorem find?_of_sorted (hsorted : keys.toList.Pairwise fun a b => a.id ≤ b.id)
    (entries : Array Entry) (query : Query) :
    find? keys entries query =
      ((keys.toList.filter (keyMatches entries query)).getLast?).map (·.index) := by
  rw [List.getLast?_filter]
  unfold find?
  cases hlast : lastOf? keys query.id with
  | none =>
    have hother := lastOf?_eq_none hsorted hlast
    have hnone : keys.toList.reverse.find? (keyMatches entries query) = none :=
      List.find?_eq_none.2 fun key hmem => by
        simp [keyMatches, hother key (List.mem_reverse.1 hmem)]
    rw [hnone]
    rfl
  | some hit =>
    obtain ⟨hbefore, hbehind⟩ := (lastOf?_eq_some hlast ▸ splits_countAtMost hsorted query.id).parts
    have hgreater : ∀ key ∈ keys.toList.drop (hit + 1), key.id ≠ query.id := fun key hmem heq =>
      UInt32.lt_irrefl _ (heq ▸ hbehind key hmem)
    have hafter : (keys.toList.drop (hit + 1)).takeWhile (·.id == query.id) = [] := by
      cases hdrop : keys.toList.drop (hit + 1) with
      | nil => rfl
      | cons key rest =>
        rw [hdrop] at hgreater
        rw [List.takeWhile_cons, beq_false_of_ne (hgreater key List.mem_cons_self)]
        rfl
    have hnone : (keys.toList.drop (hit + 1)).reverse.find? (keyMatches entries query) = none :=
      List.find?_eq_none.2 fun key hmem => by
        simp [keyMatches, hgreater key (List.mem_reverse.1 hmem)]
    have hparts : keys.toList.reverse.find? (keyMatches entries query) =
        (keys.toList.take (hit + 1)).reverse.find? (keyMatches entries query) := by
      conv_lhs => rw [← List.take_append_drop (hit + 1) keys.toList]
      rw [List.reverse_append, List.find?_append, hnone, Option.none_or]
    have hdescending : ((keys.toList.take (hit + 1)).reverse).Pairwise fun a b => b.id ≤ a.id :=
      List.pairwise_reverse.2 (hsorted.sublist (List.take_sublist _ _))
    dsimp only
    rw [hafter, List.append_nil, hparts, find?_takeWhile_of_descending _ hdescending fun key hmem =>
      hbefore key (List.mem_reverse.1 hmem)]
    rfl

/-! ## 3. The keys of entries -/

/-- Sorting keeps the order of keys with one id. -/
theorem filter_sort (list : List SearchKey) {p : SearchKey → Bool}
    (hid : ∀ key, p key = true → key.id = id) :
    (sort list).filter p = list.filter p := by
  have hordered : (list.filter p).Pairwise fun a b => decide (a.id ≤ b.id) = true :=
    List.pairwise_filter.2 (List.pairwise_of_forall fun a b => fun ha hb => by
      rw [hid a ha, hid b hb]
      exact decide_eq_true (UInt32.le_refl id))
  have hsublist : (list.filter p).Sublist ((sort list).filter p) := by
    have h := (List.sublist_mergeSort id_le_trans id_le_total hordered List.filter_sublist).filter p
    rwa [List.filter_filter, List.filter_congr fun a _ => Bool.and_self (p a)] at h
  exact (hsublist.eq_of_length ((List.mergeSort_perm list _).symm.filter p).length_eq).symm

/-- One key for each entry, with its place. -/
def keysOf (entries : List Entry) : List SearchKey :=
  entries.zipIdx.map fun (entry, place) => ⟨entry.id, UInt32.ofNat place⟩

/-- The place of the last entry that answers a query, by looking at one entry after the other. -/
def scan (query : Query) (entries : List Entry) : Option Nat :=
  ((entries.zipIdx.filter fun (entry, _) => entry.answers query).getLast?).map (·.2)

/-- An entry that answers has the id that is asked for. -/
theorem id_of_answers {entry : Entry} {query : Query} (h : entry.answers query = true) :
    entry.id = query.id := by
  simp only [Entry.answers, Bool.and_eq_true, beq_iff_eq] at h
  exact h.1.1.2

/-- The entry at the key of an entry is that entry. -/
theorem keyAnswers_keyOf (hsize : entries.size < wordSpace) (query : Query) {entry : Entry}
    {place : Nat} (h : entries[place]? = some entry) :
    keyAnswers entries query ⟨entry.id, UInt32.ofNat place⟩ = entry.answers query := by
  have hplace : place < wordSpace := Nat.lt_trans (Array.getElem?_eq_some_iff.1 h).1 hsize
  have hat : entries[(UInt32.ofNat place).toNat]? = some entry := by
    rw [toNat_ofNat_of_lt_wordSpace hplace, h]
  simp only [keyAnswers, hat]

/-- Its key has the id that is asked for, if the entry answers. -/
theorem keyMatches_keyOf (hsize : entries.size < wordSpace) (query : Query) {entry : Entry}
    {place : Nat} (h : entries[place]? = some entry) :
    keyMatches entries query ⟨entry.id, UInt32.ofNat place⟩ = entry.answers query := by
  rw [keyMatches, keyAnswers_keyOf hsize query h]
  cases hanswers : entry.answers query with
  | false => exact Bool.and_false _
  | true => rw [id_of_answers hanswers, beq_self_eq_true, Bool.and_true]

/-- Every key is that of an entry. -/
theorem exists_of_mem_keysOf {key : SearchKey} (h : key ∈ keysOf entries.toList) :
    ∃ entry place, entries[place]? = some entry ∧ key = ⟨entry.id, UInt32.ofNat place⟩ := by
  obtain ⟨⟨entry, place⟩, hmem, rfl⟩ := List.mem_map.1 h
  have hat : entries.toList[place]? = some entry := List.mem_zipIdx_iff_getElem?.1 hmem
  exact ⟨entry, place, by rwa [← Array.getElem?_toList], rfl⟩

/-- The keys that match are those of the entries that answer. -/
theorem filter_keysOf (hsize : entries.size < wordSpace) (query : Query) :
    (keysOf entries.toList).filter (keyMatches entries query) =
      (entries.toList.zipIdx.filter fun (entry, _) => entry.answers query).map
        fun (entry, place) => ⟨entry.id, UInt32.ofNat place⟩ := by
  rw [keysOf, List.filter_map]
  refine congrArg _ (List.filter_congr fun row hmem => ?_)
  have hat : entries.toList[row.2]? = some row.1 := List.mem_zipIdx_iff_getElem?.1 hmem
  exact keyMatches_keyOf hsize query (by rwa [← Array.getElem?_toList])

/-- **Over the sorted keys of entries the search finds what a scan of the entries finds.** -/
theorem find?_keysOf (hsize : entries.size < wordSpace) (query : Query) :
    find? (sort (keysOf entries.toList)).toArray entries query =
      (scan query entries.toList).map UInt32.ofNat := by
  have hid : ∀ key, keyMatches entries query key = true → key.id = query.id := fun key h =>
    eq_of_beq (Bool.and_eq_true_iff.1 h).1
  have hsorted : (sort (keysOf entries.toList)).toArray.toList.Pairwise fun a b => a.id ≤ b.id :=
    pairwise_sort _
  rw [find?_of_sorted hsorted, filter_sort _ hid, filter_keysOf hsize, List.getLast?_map, scan,
    Option.map_map, Option.map_map]
  rfl

/-! ## 4. Scanning -/

/-- Rows of a list are at growing places. -/
theorem pairwise_places (entries : List Entry) : entries.zipIdx.Pairwise fun a b => a.2 < b.2 := by
  have hgrow : (entries.zipIdx.map Prod.snd).Pairwise (· < ·) := by
    rw [List.zipIdx_map_snd]
    exact List.pairwise_lt_range'
  exact List.pairwise_map.1 hgrow

/-- **A scan finds an entry that answers, and none behind it does.** -/
theorem scan_eq_some {list : List Entry} {query : Query} {place : Nat}
    (h : scan query list = some place) :
    (∃ entry, list[place]? = some entry ∧ entry.answers query = true) ∧
      ∀ later entry, place < later → list[later]? = some entry → entry.answers query = false := by
  obtain ⟨⟨found, place⟩, hlast, rfl⟩ := Option.map_eq_some_iff.1 h
  obtain ⟨hanswers, before, behind, hparts, hbehind⟩ := getLast?_filter_eq_some hlast
  have hrows : ∀ {entry : Entry} {i : Nat}, (entry, i) ∈ list.zipIdx ↔ list[i]? = some entry :=
    List.mem_zipIdx_iff_getElem?
  refine ⟨⟨found, hrows.1 (by simp [hparts]), hanswers⟩, fun later entry hlt hentry => ?_⟩
  -- The places grow along the rows, so that a greater place is behind.
  have hgrow := pairwise_places list
  rw [hparts, List.pairwise_append] at hgrow
  have hmem := hrows.2 hentry
  rw [hparts, List.mem_append, List.mem_cons] at hmem
  rcases hmem with hfront | hsame | hback
  · have := hgrow.2.2 (entry, later) hfront (found, place) List.mem_cons_self
    omega
  · have := congrArg Prod.snd hsame
    omega
  · exact hbehind (entry, later) hback

/-- A scan finds something exactly where some entry answers. -/
theorem scan_isSome {list : List Entry} {query : Query} :
    (scan query list).isSome ↔ ∃ entry ∈ list, entry.answers query = true := by
  rw [scan, Option.isSome_map, List.getLast?_filter, List.find?_isSome]
  constructor
  · rintro ⟨⟨entry, place⟩, hmem, hanswers⟩
    exact ⟨entry, List.mem_of_getElem? (List.mem_zipIdx_iff_getElem?.1 (List.mem_reverse.1 hmem)),
      hanswers⟩
  · rintro ⟨entry, hmem, hanswers⟩
    obtain ⟨place, hat⟩ := List.mem_iff_getElem?.1 hmem
    exact ⟨(entry, place), List.mem_reverse.2 (List.mem_zipIdx_iff_getElem?.2 hat), hanswers⟩

/-- **Searching is scanning.** Over the sorted keys of fewer than 2^32 entries, one key for each, a
    query is answered exactly when some entry answers it; then the key of what is found is the last
    one in the table whose entry answers, and its place is that of the last entry that answers. -/
theorem search_is_scan (entries : Array Entry) (hsize : entries.size < wordSpace) (query : Query) :
    let table := sort (keysOf entries.toList)
    find? table.toArray entries query = (scan query entries.toList).map UInt32.ofNat ∧
    ((find? table.toArray entries query).isSome ↔ ∃ entry ∈ entries, entry.answers query = true) ∧
    ∀ index, find? table.toArray entries query = some index →
      (∃ earlier later, table = earlier ++ ⟨query.id, index⟩ :: later ∧
        keyAnswers entries query ⟨query.id, index⟩ = true ∧
        ∀ key ∈ later, keyAnswers entries query key = false) ∧
      ∃ entry, entries[index.toNat]? = some entry ∧ entry.answers query = true ∧
        ∀ place other, index.toNat < place → entries[place]? = some other →
        other.answers query = false := by
  intro table
  have hscan := find?_keysOf hsize query
  refine ⟨hscan, ?_, fun index hfound => ⟨?_, ?_⟩⟩
  · rw [hscan, Option.isSome_map, scan_isSome]
    simp only [Array.mem_toList_iff]
  · rw [find?_of_sorted (show table.toArray.toList.Pairwise _ from pairwise_sort _)] at hfound
    obtain ⟨⟨id, _⟩, hlast, rfl⟩ := Option.map_eq_some_iff.1 hfound
    obtain ⟨hmatches, earlier, later, hparts, hlater⟩ := getLast?_filter_eq_some hlast
    obtain ⟨hid, hanswers⟩ := Bool.and_eq_true_iff.1 hmatches
    obtain rfl : id = query.id := eq_of_beq hid
    refine ⟨earlier, later, hparts, hanswers, fun key hmem => ?_⟩
    have hkey : key ∈ table := by
      rw [show table = _ from hparts]
      exact List.mem_append_right _ (List.mem_cons_of_mem _ hmem)
    obtain ⟨entry, place, hentry, rfl⟩ := exists_of_mem_keysOf (List.mem_mergeSort.1 hkey)
    rw [keyAnswers_keyOf hsize query hentry, ← keyMatches_keyOf hsize query hentry]
    exact hlater _ hmem
  · rw [hscan] at hfound
    obtain ⟨place, hplace, rfl⟩ := Option.map_eq_some_iff.1 hfound
    obtain ⟨⟨entry, hentry, hanswers⟩, hlater⟩ := scan_eq_some hplace
    have hlt : place < entries.toList.length := (List.getElem?_eq_some_iff.1 hentry).1
    have hback : (UInt32.ofNat place).toNat = place :=
      toNat_ofNat_of_lt_wordSpace (Nat.lt_trans hlt hsize)
    rw [hback]
    exact ⟨entry, by rwa [← Array.getElem?_toList], hanswers, fun later other hbehind hother =>
      hlater later other hbehind (by rwa [Array.getElem?_toList])⟩

/-! An example: of four entries with one id, the last cannot be entered any more and one is a
stub. -/

/-- Compiled code with this id. -/
def version (flags : EntryFlags) : Entry := { Entry.blank .code 5 with level := 4, flags }

/-- The entries, with one of another id in front. -/
def versions : Array Entry :=
  #[Entry.blank .stub 9, version .none, version .none, Entry.blank .stub 5,
    version { EntryFlags.none with notEntrant := true }]

theorem search_is_scan_versions :
    versions.size < wordSpace ∧
      find? (sort (keysOf versions.toList)).toArray versions ⟨.code, 5, 4, 0⟩ = some 2 := by
  have hsize : versions.size < wordSpace := by decide
  exact ⟨hsize, (search_is_scan versions hsize ⟨.code, 5, 4, 0⟩).1.trans (by decide)⟩

end CodeVault.SearchTable
