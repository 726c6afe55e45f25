import CodeVault.Proofs.Index.Merge

/-!
# What the search relies on

A table is accepted exactly if it has as many keys as there are entries, is sorted, and each key is
at an entry with its id (`validate_eq_ok`). The keys that a merge leaves are one for each entry,
sorted, and each points at an entry with its id; such a table is accepted (`validate_ok`).
-/

namespace CodeVault

namespace SearchTable

/-- Keys are compared by their ids alone. -/
theorem id_le_trans (a b c : SearchKey) (hab : decide (a.id ≤ b.id) = true)
    (hbc : decide (b.id ≤ c.id) = true) :
    decide (a.id ≤ c.id) = true :=
  decide_eq_true (UInt32.le_trans (of_decide_eq_true hab) (of_decide_eq_true hbc))

theorem id_le_total (a b : SearchKey) : (decide (a.id ≤ b.id) || decide (b.id ≤ a.id)) = true := by
  simp [UInt32.le_total]

theorem pairwise_sort (keys : List SearchKey) : (sort keys).Pairwise fun a b => a.id ≤ b.id :=
  (List.pairwise_mergeSort id_le_trans id_le_total keys).imp of_decide_eq_true

/-- Keys are in order exactly when there is no first key that is out of order. -/
theorem firstUnsorted?_eq_none {keys : List SearchKey} :
    firstUnsorted? keys = none ↔ keys.Pairwise fun a b => a.id ≤ b.id := by
  have hrows : firstUnsorted? keys = none ↔ ∀ row ∈ keys.zip keys.tail, ¬row.2.id < row.1.id := by
    rw [firstUnsorted?, Option.map_eq_none_iff, List.findIdx?_eq_none_iff]
    simp only [decide_eq_false_iff_not]
  rw [hrows]
  clear hrows
  induction keys with
  | nil => simp
  | cons key keys ih =>
    cases keys with
    | nil => simp
    | cons next keys =>
      have hsplit : (∀ row ∈ (key :: next :: keys).zip (key :: next :: keys).tail,
          ¬row.2.id < row.1.id) ↔
          key.id ≤ next.id ∧ ∀ row ∈ (next :: keys).zip (next :: keys).tail,
            ¬row.2.id < row.1.id := by
        rw [List.tail_cons, List.zip_cons_cons, List.forall_mem_cons, UInt32.not_lt]
        rfl
      refine (hsplit.trans (and_congr_right fun _ => ih)).trans ?_
      rw [List.pairwise_cons (a := key)]
      constructor
      · rintro ⟨hnext, hrest⟩
        refine ⟨fun other hmem => ?_, hrest⟩
        rcases List.mem_cons.1 hmem with rfl | hmem
        · exact hnext
        · exact UInt32.le_trans hnext ((List.pairwise_cons.1 hrest).1 other hmem)
      · rintro ⟨hfirst, hrest⟩
        exact ⟨hfirst next List.mem_cons_self, hrest⟩

/-- Nothing is wrong with a key exactly when it is at an entry with its id. -/
theorem keyFault?_eq_none {entries : Array Entry} {key : SearchKey} :
    keyFault? entries key = none ↔
      ∃ entry, entries[key.index.toNat]? = some entry ∧ entry.id = key.id := by
  unfold keyFault?
  split
  · rename_i hnone
    simp [hnone]
  · rename_i entry hentry
    simp [hentry]

/-- **What is accepted**: as many keys as entries, sorted, and each at an entry with its id. -/
theorem validate_eq_ok {keys : Array SearchKey} {entries : Array Entry} :
    validate keys entries = .ok () ↔ keys.size = entries.size ∧
      (keys.toList.Pairwise fun a b => a.id ≤ b.id) ∧
      ∀ key ∈ keys.toList, ∃ entry, entries[key.index.toNat]? = some entry ∧ entry.id = key.id := by
  rw [← firstUnsorted?_eq_none]
  simp only [← keyFault?_eq_none, ← List.findSome?_eq_none_iff]
  unfold validate
  split
  · rename_i hne
    simp [hne]
  · rename_i heq
    cases hunsorted : firstUnsorted? keys.toList with
    | some row => simp
    | none =>
      cases hfault : keys.toList.findSome? (keyFault? entries) with
      | some fault => simp
      | none => simp [not_not.1 heq]

/-- **Sorted keys, one for each entry and each pointing at an entry with its id, are accepted.** -/
theorem validate_ok {keys : Array SearchKey} {entries : Array Entry}
    (hcount : keys.size = entries.size) (hsize : entries.size < wordSpace)
    (hsorted : keys.toList.Pairwise fun a b => a.id ≤ b.id)
    (hkeys : ∀ key ∈ keys.toList, Merged.PointsAt entries key) :
    validate keys entries = .ok () := by
  refine validate_eq_ok.2 ⟨hcount, hsorted, fun key hmem => ?_⟩
  obtain ⟨place, entry, hindex, hentry, hid⟩ := hkeys key hmem
  have hlt : place < wordSpace := Nat.lt_trans (Array.getElem?_eq_some_iff.1 hentry).1 hsize
  exact ⟨entry, by rw [hindex, toNat_ofNat_of_lt_wordSpace hlt, hentry], hid⟩

end SearchTable

end CodeVault
