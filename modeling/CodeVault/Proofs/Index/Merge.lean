import CodeVault.Index.Merge
import CodeVault.Proofs.Bytes.Parts
import CodeVault.Proofs.Lists
import CodeVault.Proofs.Outcome

/-!
# What a merge holds

* `Item` is an entry together with the bytes that its offset counts in; the items of a run are those
  of the loaded container, then those that were stored;
* `Merged.Holds`: a merge holds exactly the items that survive, in their order, each with its bytes
  (`Kept`); its keys and its preload list point at its entries;
* **one item taken in is one item held more, or left out** (`Holds.absorb`), so that a merge of both
  populations holds the survivors of both (`holds_of_merge`);
* **a merge of entries that repeat the survivors of another merge is that merge again**
  (`merge_again`), but for the number of entries that were left out.
-/

namespace CodeVault

open Bytes

/-- An entry, and the bytes that its offset counts in. -/
structure Item where
  source : Bytes
  entry : Entry

namespace Item

/-- The bytes of an item. -/
def payload? (item : Item) : Option Bytes :=
  item.source.slice? item.entry.offset.toNat item.entry.size.toNat

/-- An item is kept as an entry at a place of packed bytes that holds its bytes. -/
def Kept (packed : Bytes) (item : Item) (entry : Entry) : Prop :=
  ∃ offset bytes, offset < wordSpace ∧ entry = Merged.keptEntry item.entry offset ∧
    item.payload? = some bytes ∧ PartAt packed offset bytes

theorem Kept.append {packed : Bytes} {item : Item} {entry : Entry} (h : item.Kept packed entry)
    (more : Bytes) : item.Kept (packed ++ more) entry := by
  obtain ⟨offset, bytes, hlt, hentry, hbytes, hpart⟩ := h
  exact ⟨offset, bytes, hlt, hentry, hbytes, hpart.append_right more⟩

end Item

namespace Merged

/-- A key points at an entry with its id. -/
def PointsAt (entries : Array Entry) (key : SearchKey) : Prop :=
  ∃ place entry, key.index = UInt32.ofNat place ∧ entries[place]? = some entry ∧ entry.id = key.id

/-- A merge holds the items that survive, in their order, and its tables point at its entries. -/
structure Holds (merged : Merged) (items : List Item) : Prop where
  entries : List.Forall₂ (Item.Kept merged.payload) (items.filter (·.entry.survives))
    merged.entries.toList
  count : merged.search.length = merged.entries.size
  search : ∀ key ∈ merged.search, PointsAt merged.entries key
  preload : ∀ index ∈ merged.preload, ∃ place < merged.entries.size, index = UInt32.ofNat place

theorem holds_empty : empty.Holds [] := by
  refine ⟨.nil, rfl, ?_, ?_⟩ <;> simp [empty]

theorem PointsAt.push {entries : Array Entry} {key : SearchKey} (h : PointsAt entries key)
    (entry : Entry) : PointsAt (entries.push entry) key := by
  obtain ⟨place, found, hindex, hfound, hid⟩ := h
  refine ⟨place, found, hindex, ?_, hid⟩
  have hlt := (Array.getElem?_eq_some_iff.1 hfound).1
  rw [Array.getElem?_push, if_neg (Nat.ne_of_lt hlt), hfound]

/-- What taking in an item that survives does. -/
theorem absorb_ok {source : Bytes} {merged after : Merged} {entry : Entry}
    (hsurvives : entry.survives = true) (h : absorb source merged entry = .ok after) :
    ∃ bytes, source.slice? entry.offset.toNat entry.size.toNat = some bytes ∧
      merged.payload.size < wordSpace ∧
      after.entries = merged.entries.push (keptEntry entry merged.payload.size) ∧
      after.payload = merged.payload ++ (bytes
        ++ zeros (paddingAfter (merged.payload.size + bytes.size))) ∧
      after.search = merged.search ++ [⟨entry.id, UInt32.ofNat merged.entries.size⟩] ∧
      (after.preload = merged.preload ∨
        after.preload = merged.preload.push (UInt32.ofNat merged.entries.size)) := by
  simp only [absorb, hsurvives, Bool.not_true, Bool.false_eq_true, if_false] at h
  cases hslice : source.slice? entry.offset.toNat entry.size.toNat with
  | none =>
    simp only [hslice] at h
    cases h
  | some bytes =>
    simp only [hslice] at h
    split at h
    · cases h
    · rename_i hlt
      cases h
      refine ⟨bytes, rfl, Nat.not_le.1 hlt, rfl, Array.append_assoc, rfl, ?_⟩
      cases entry.isPreloadCode
      · exact .inl rfl
      · exact .inr rfl

/-- **One item taken in is one item held more, if it survives.** -/
theorem Holds.absorb {merged after : Merged} {items : List Item} {source : Bytes} {entry : Entry}
    (h : merged.Holds items) (hrun : Merged.absorb source merged entry = .ok after) :
    after.Holds (items ++ [⟨source, entry⟩]) := by
  cases hsurvives : entry.survives with
  | false =>
    simp only [Merged.absorb, hsurvives, Bool.not_false, if_true] at hrun
    cases hrun
    refine ⟨?_, h.count, h.search, h.preload⟩
    simpa [List.filter_append, hsurvives] using h.entries
  | true =>
    obtain ⟨bytes, hbytes, hlt, hentries, hpayload, hsearch, hpreload⟩ := absorb_ok hsurvives hrun
    refine ⟨?_, ?_, ?_, ?_⟩
    · rw [List.filter_append, hentries, Array.toList_push, hpayload]
      refine List.rel_append (h.entries.imp fun _ _ hkept => hkept.append _) ?_
      simp only [hsurvives, List.filter_cons_of_pos, List.filter_nil]
      refine .cons ⟨merged.payload.size, bytes, hlt, rfl, hbytes, ?_⟩ .nil
      exact ⟨merged.payload, zeros (paddingAfter (merged.payload.size + bytes.size)),
        Array.append_assoc.symm, rfl⟩
    · rw [hsearch, hentries, List.length_append, h.count, Array.size_push]
      rfl
    · intro key hmem
      rw [hentries]
      rw [hsearch, List.mem_append, List.mem_singleton] at hmem
      rcases hmem with hmem | rfl
      · exact (h.search key hmem).push _
      · exact ⟨merged.entries.size, _, rfl, Array.getElem?_push_size, rfl⟩
    · intro index hmem
      rw [hentries, Array.size_push]
      have hold : ∀ index ∈ merged.preload, ∃ place < merged.entries.size + 1,
          index = UInt32.ofNat place := fun index hmem => by
        obtain ⟨place, hlt, heq⟩ := h.preload index hmem
        exact ⟨place, by omega, heq⟩
      rcases hpreload with hsame | hmore
      · exact hold index (hsame ▸ hmem)
      · rw [hmore, Array.mem_push] at hmem
        rcases hmem with hmem | rfl
        · exact hold index hmem
        · exact ⟨merged.entries.size, Nat.lt_succ_self _, rfl⟩

/-- The items of entries whose offsets count in the same bytes. -/
def itemsOf (source : Bytes) (entries : List Entry) : List Item := entries.map (⟨source, ·⟩)

theorem Holds.absorbAll {merged after : Merged} {items : List Item} {source : Bytes}
    {entries : List Entry} (h : merged.Holds items)
    (hrun : entries.foldlM (Merged.absorb source) merged = .ok after) :
    after.Holds (items ++ itemsOf source entries) := by
  induction entries generalizing merged items with
  | nil =>
    cases hrun
    simpa [itemsOf] using h
  | cons entry entries ih =>
    rw [List.foldlM_cons] at hrun
    obtain ⟨middle, hfirst, hrest⟩ := except_bind_eq_ok.1 hrun
    have := ih (h.absorb hfirst) hrest
    rwa [List.append_assoc] at this

theorem mem_sort {key : SearchKey} {keys : List SearchKey} :
    key ∈ SearchTable.sort keys ↔ key ∈ keys :=
  List.mem_mergeSort

end Merged

/-- The items of a run: those of the loaded container, then those that were stored. -/
def EntryIndex.items (index : EntryIndex) (image arena : Bytes) : List Item :=
  Merged.itemsOf image index.loaded.toList ++ Merged.itemsOf arena index.stored.toList

/-- The entries of the items are those that the index has. -/
theorem EntryIndex.forall_items {index : EntryIndex} {image arena : Bytes} (p : Entry → Prop) :
    (∀ item ∈ index.items image arena, p item.entry) ↔
      ∀ id entry, index.get? id = some entry → p entry := by
  simp only [items, Merged.itemsOf, List.forall_mem_append, List.forall_mem_map,
    Array.mem_toList_iff]
  constructor
  · rintro ⟨hloaded, hstored⟩ id entry hentry
    cases id with
    | loaded i => exact hloaded entry (Array.mem_of_getElem? hentry)
    | stored i => exact hstored entry (Array.mem_of_getElem? hentry)
  · intro hall
    refine ⟨fun entry hmem => ?_, fun entry hmem => ?_⟩
    · obtain ⟨i, hentry⟩ := Array.mem_iff_getElem?.1 hmem
      exact hall (.loaded i) entry hentry
    · obtain ⟨i, hentry⟩ := Array.mem_iff_getElem?.1 hmem
      exact hall (.stored i) entry hentry

/-- **The entries of a merge are of some kind exactly if those that survived are.** -/
theorem Merged.Holds.kinds_iff {merged : Merged} {items : List Item} (h : merged.Holds items) :
    (∀ entry ∈ merged.entries.toList, entry.kind ≠ .none) ↔
      ∀ item ∈ items, item.entry.survives = true → item.entry.kind ≠ .none := by
  have hsame : ∀ {item : Item} {entry : Entry}, item.Kept merged.payload entry →
      entry.kind = item.entry.kind := by
    rintro item _ ⟨offset, bytes, -, rfl, -⟩
    rfl
  constructor
  · intro hmerged item hitem hsurvives
    obtain ⟨entry, hentry, hkept⟩ :=
      exists_of_forall₂ h.entries.flip (List.mem_filter.2 ⟨hitem, hsurvives⟩)
    exact hsame hkept ▸ hmerged entry hentry
  · intro hitems entry hentry
    obtain ⟨item, hitem, hkept⟩ := exists_of_forall₂ h.entries hentry
    obtain ⟨hmem, hsurvives⟩ := List.mem_filter.1 hitem
    exact hsame hkept ▸ hitems item hmem hsurvives

/-- **A merge holds the survivors of both populations**, and its keys are sorted. -/
theorem Merged.holds_of_merge {index : EntryIndex} {image arena : Bytes} {merged : Merged}
    (h : index.merge image arena = .ok merged) :
    merged.Holds (index.items image arena) ∧
      ∃ keys, merged.search = SearchTable.sort keys := by
  obtain ⟨kept, hkept, h⟩ := except_bind_eq_ok.1 h
  obtain ⟨all, hall, hdone⟩ := except_bind_eq_ok.1 h
  cases hdone
  have hholds := (Merged.holds_empty.absorbAll hkept).absorbAll hall
  refine ⟨⟨hholds.entries, ?_, fun key hmem => ?_, hholds.preload⟩, all.search, rfl⟩
  · show (SearchTable.sort all.search).length = _
    rw [SearchTable.sort, List.length_mergeSort]
    exact hholds.count
  · exact hholds.search key (Merged.mem_sort.1 hmem)

/-! Merging again: an item that does not survive leaves nothing but a number behind, and one that
survives is taken in alike as often as it is. -/

namespace Merged

/-- Two merges hold the same; they may have left out different numbers of entries. -/
def Alike (merged other : Merged) : Prop := ∃ skipped, other = { merged with skipped }

/-- Takes in one item. -/
def absorbItem (merged : Merged) (item : Item) : Except CacheError Merged :=
  absorb item.source merged item.entry

/-- An entry whose offset counts in `source` repeats an item: it survives, and what is kept of it is
    what is kept of the item. -/
structure Repeats (source : Bytes) (item : Item) (entry : Entry) : Prop where
  survives : entry.survives = true
  kept : ∀ offset, keptEntry entry offset = keptEntry item.entry offset
  preload : entry.isPreloadCode = item.entry.isPreloadCode
  payload : source.slice? entry.offset.toNat entry.size.toNat = item.payload?

theorem Alike.refl (merged : Merged) : merged.Alike merged := ⟨merged.skipped, rfl⟩

theorem foldlM_itemsOf (source : Bytes) (entries : List Entry) (merged : Merged) :
    (itemsOf source entries).foldlM absorbItem merged = entries.foldlM (absorb source) merged :=
  List.foldlM_map ..

/-- A merge of both populations takes in the items of both, and sorts the keys then. -/
theorem ofPopulations_eq (loaded : Array Entry) (image : Bytes) (stored : Array Entry)
    (arena : Bytes) :
    ofPopulations loaded image stored arena =
      ((itemsOf image loaded.toList ++ itemsOf arena stored.toList).foldlM absorbItem empty).map
        fun all => { all with search := SearchTable.sort all.search } := by
  rw [List.foldlM_append, foldlM_itemsOf, ofPopulations]
  cases loaded.toList.foldlM (absorb image) empty with
  | error cause => rfl
  | ok kept =>
    show (stored.toList.foldlM (absorb arena) kept >>= _) =
      ((itemsOf arena stored.toList).foldlM absorbItem kept).map _
    rw [foldlM_itemsOf]
    cases stored.toList.foldlM (absorb arena) kept <;> rfl

theorem foldlM_of_merge {index : EntryIndex} {image arena : Bytes} {merged : Merged}
    (h : index.merge image arena = .ok merged) :
    ∃ all, (index.items image arena).foldlM absorbItem empty = .ok all ∧
      merged = { all with search := SearchTable.sort all.search } := by
  obtain ⟨all, hall, hdone⟩ := except_map_eq_ok.1 ((ofPopulations_eq ..).symm.trans h)
  exact ⟨all, hall, hdone.symm⟩

variable {source : Bytes} {item : Item} {entry : Entry} {merged other next : Merged}

/-- **Taking in a repeated item does what taking in the item did.** -/
theorem Repeats.absorb (h : Repeats source item entry) (hsurvives : item.entry.survives = true)
    (halike : merged.Alike other) (hrun : merged.absorbItem item = .ok next) :
    ∃ last, Merged.absorb source other entry = .ok last ∧ next.Alike last := by
  obtain ⟨skipped, rfl⟩ := halike
  have hkept : (keptEntry entry 0).id = (keptEntry item.entry 0).id := congrArg Entry.id (h.kept 0)
  have hid : entry.id = item.entry.id := hkept
  have hpayload := h.payload
  unfold Item.payload? at hpayload
  simp only [absorbItem, Merged.absorb, hsurvives, Bool.not_true, Bool.false_eq_true, if_false]
    at hrun
  simp only [Merged.absorb, h.survives, hpayload, h.kept, hid, h.preload, Bool.not_true,
    Bool.false_eq_true, if_false]
  split at hrun
  · cases hrun
  · split at hrun
    · cases hrun
    · rename_i hlt
      cases hrun
      exact ⟨_, if_neg hlt, skipped, rfl⟩

/-- **Taking in the repeated survivors of a list does what taking in the list did.** -/
theorem foldlM_repeats {items : List Item} {entries : List Entry} {final : Merged}
    (hrepeats : List.Forall₂ (Repeats source) (items.filter (·.entry.survives)) entries)
    (halike : merged.Alike other) (hrun : items.foldlM absorbItem merged = .ok final) :
    ∃ last, entries.foldlM (Merged.absorb source) other = .ok last ∧ final.Alike last := by
  induction items generalizing merged other entries with
  | nil =>
    cases hrun
    cases hrepeats
    exact ⟨other, rfl, halike⟩
  | cons item items ih =>
    rw [List.foldlM_cons] at hrun
    obtain ⟨next, hfirst, hrest⟩ := except_bind_eq_ok.1 hrun
    cases hsurvives : item.entry.survives with
    | false =>
      rw [List.filter_cons_of_neg (by simp [hsurvives])] at hrepeats
      simp only [absorbItem, Merged.absorb, hsurvives, Bool.not_false, if_true] at hfirst
      cases hfirst
      obtain ⟨skipped, rfl⟩ := halike
      have hsame : ({ merged with skipped := merged.skipped + 1 } : Merged).Alike
          { merged with skipped } :=
        ⟨skipped, rfl⟩
      exact ih hrepeats hsame hrest
    | true =>
      rw [List.filter_cons_of_pos (by simp [hsurvives])] at hrepeats
      cases hrepeats with
      | cons hitem hmore =>
        obtain ⟨after, habsorb, hsame⟩ := hitem.absorb hsurvives halike hfirst
        obtain ⟨last, hlast, hdone⟩ := ih hmore hsame hrest
        exact ⟨last, by rw [List.foldlM_cons, habsorb]; exact hlast, hdone⟩

/-- **A merge of loaded entries that repeat the survivors of a merge is that merge again.** -/
theorem merge_again {index again : EntryIndex} {image arena spare : Bytes} {merged : Merged}
    (h : index.merge image arena = .ok merged) (hstored : again.stored = #[])
    (hrepeats : List.Forall₂ (Repeats source) ((index.items image arena).filter (·.entry.survives))
      again.loaded.toList) :
    ∃ last, again.merge source spare = .ok last ∧ merged.Alike last := by
  obtain ⟨all, hall, rfl⟩ := foldlM_of_merge h
  obtain ⟨last, hlast, skipped, rfl⟩ := foldlM_repeats hrepeats (.refl empty) hall
  refine ⟨{ all with search := SearchTable.sort all.search, skipped }, ?_, skipped, rfl⟩
  rw [EntryIndex.merge, ofPopulations, hstored, hlast]
  rfl

end Merged

end CodeVault
