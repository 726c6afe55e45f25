import CodeVault.Proofs.Index.Search

/-!
# Where a merge puts what it keeps

* `Merged.placed` is the specification: items packed one behind the other, each at the next
  boundary;
* `Took` says what a merge holds more after items were taken in; **a list of items is taken in, its
  survivors where `placed` says, or one of them does not fit** (`foldlM_cases`);
* in packed bytes stand the bytes of the items, and zeros (`partAt_placed`, `eq_zero_of_packed`);
* `Packs` says what a merge of both populations holds. **A merge is refused exactly if a survivor
  does not fit, and packs the survivors otherwise** (`merge_packs`).
-/

namespace CodeVault

open Bytes SearchTable

namespace Merged

/-! ## 1. Places -/

/-- Items with the offsets at which they are packed from a place on, each filled up to the next
    boundary. -/
def placed (start : Nat) : List Item → List (Item × Nat)
  | [] => []
  | item :: items => (item, start) :: placed (start + alignUp item.entry.size.toNat) items

/-- The items that are kept. -/
def survivors (items : List Item) : List Item := items.filter (·.entry.survives)

/-- An item fits at an offset: its bytes are inside their source, and the offset is a word. -/
def Fits (row : Item × Nat) : Prop :=
  row.1.entry.offset.toNat + row.1.entry.size.toNat ≤ row.1.source.size ∧ row.2 < wordSpace

/-- The entry that is kept of an item at an offset. -/
def keptAt (row : Item × Nat) : Entry := keptEntry row.1.entry row.2

/-- The bytes of items that are packed, each filled up to the next boundary. -/
def packed (items : List Item) : Bytes :=
  join (items.map fun item => Container.padded (item.payload?.getD #[]))

variable {item : Item} {items : List Item} {start : Nat}

theorem le_of_mem_placed {row : Item × Nat} (h : row ∈ placed start items) : start ≤ row.2 := by
  induction items generalizing start with
  | nil => cases h
  | cons item items ih =>
    rcases List.mem_cons.1 h with rfl | hmem
    · exact Nat.le_refl _
    · exact Nat.le_trans (Nat.le_add_right _ _) (ih hmem)

/-- **Every place is a boundary.** -/
theorem placed_mod (hstart : start % dataAlignment = 0) {row : Item × Nat}
    (h : row ∈ placed start items) :
    row.2 % dataAlignment = 0 := by
  induction items generalizing start with
  | nil => cases h
  | cons item items ih =>
    rcases List.mem_cons.1 h with rfl | hmem
    · exact hstart
    · refine ih ?_ hmem
      rw [Nat.add_mod, hstart, alignUp_mod]
      rfl

/-- **Places are behind each other.** -/
theorem pairwise_placed (start : Nat) (items : List Item) :
    (placed start items).Pairwise fun a b => a.2 + a.1.entry.size.toNat ≤ b.2 := by
  induction items generalizing start with
  | nil => exact .nil
  | cons item items ih =>
    refine List.pairwise_cons.2 ⟨fun row hmem => ?_, ih _⟩
    have hroom := le_alignUp item.entry.size.toNat
    have hbehind := le_of_mem_placed hmem
    show start + item.entry.size.toNat ≤ row.2
    omega

theorem payload?_of_fits {offset : Nat} (h : Fits (item, offset)) :
    ∃ bytes, item.payload? = some bytes ∧ bytes.size = item.entry.size.toNat := by
  obtain ⟨bytes, hbytes⟩ := Option.isSome_iff_exists.1 (slice?_isSome.2 h.1)
  exact ⟨bytes, hbytes, size_of_slice? hbytes⟩

/-- The bytes of an item that fits are followed by those of the items behind it, at the next
    boundary. -/
theorem packed_cons {bytes : Bytes} (h : item.payload? = some bytes) :
    packed (item :: items) = Container.padded bytes ++ packed items := by
  simp only [packed, List.map_cons, join_cons, h, Option.getD_some]

/-- **In packed bytes stand the bytes of the items, each at its place.** -/
theorem partAt_placed {data : Bytes} (hfits : ∀ row ∈ placed start items, Fits row)
    (hpart : PartAt data start (packed items)) {row : Item × Nat}
    (hmem : row ∈ placed start items) :
    ∃ bytes, row.1.payload? = some bytes ∧ PartAt data row.2 bytes := by
  induction items generalizing start with
  | nil => cases hmem
  | cons item items ih =>
    obtain ⟨hfirst, hrest⟩ := List.forall_mem_cons.1 hfits
    obtain ⟨bytes, hbytes, hsize⟩ := payload?_of_fits hfirst
    rw [packed_cons hbytes, partAt_append, Container.size_padded, hsize] at hpart
    rcases List.mem_cons.1 hmem with rfl | hmem
    · exact ⟨bytes, hbytes, (partAt_append.1 hpart.1).1⟩
    · exact ih hrest hpart.2 hmem

/-- **All other packed bytes are zeros.** -/
theorem eq_zero_of_packed (hfits : ∀ row ∈ placed start items, Fits row) {i : Nat} {byte : UInt8}
    (hbyte : (packed items)[i]? = some byte)
    (hgap : ∀ row ∈ placed start items, start + i < row.2 ∨
      row.2 + row.1.entry.size.toNat ≤ start + i) :
    byte = 0 := by
  induction items generalizing start i with
  | nil => cases hbyte
  | cons item items ih =>
    obtain ⟨hfirst, hrest⟩ := List.forall_mem_cons.1 hfits
    obtain ⟨hbehind, hgap⟩ := List.forall_mem_cons.1 hgap
    obtain ⟨bytes, hbytes, hsize⟩ := payload?_of_fits hfirst
    have hbehind : bytes.size ≤ i := by
      rw [hsize]
      dsimp only at hbehind
      omega
    rw [packed_cons hbytes] at hbyte
    rcases Nat.lt_or_ge i (Container.padded bytes).size with hlt | hge
    · -- Behind the bytes of the item, up to the boundary.
      rw [Array.getElem?_append_left hlt, Container.padded, Array.getElem?_append_right hbehind,
        zeros, Array.getElem?_replicate] at hbyte
      split at hbyte <;> cases hbyte
      rfl
    · rw [Array.getElem?_append_right hge] at hbyte
      rw [Container.size_padded, hsize] at hbyte hge
      refine ih hrest hbyte fun row hmem => ?_
      have := hgap row hmem
      omega

/-! ## 2. Taking in -/

/-- The places of the entries that are to be installed before their first call. -/
def preloadPlaces (entries : List Entry) : List UInt32 :=
  (entries.zipIdx.filter fun (entry, _) => entry.kind == .code && entry.flags.forPreload).map
    fun (_, place) => UInt32.ofNat place

/-- The keys are those of the entries, in their order, and the preload list is that of the
    entries. -/
structure Tabled (merged : Merged) : Prop where
  search : merged.search = keysOf merged.entries.toList
  preload : merged.preload.toList = preloadPlaces merged.entries.toList

theorem keysOf_concat (entries : List Entry) (entry : Entry) :
    keysOf (entries ++ [entry]) = keysOf entries ++ [⟨entry.id, UInt32.ofNat entries.length⟩] := by
  simp only [keysOf, List.zipIdx_append, List.map_append, List.zipIdx_singleton, List.map_cons,
    List.map_nil, Nat.zero_add]

theorem preloadPlaces_concat (entries : List Entry) (entry : Entry) :
    preloadPlaces (entries ++ [entry]) = preloadPlaces entries ++
      (if entry.kind == .code && entry.flags.forPreload then
        [UInt32.ofNat entries.length] else []) := by
  simp only [preloadPlaces, List.zipIdx_append, List.filter_append, List.map_append,
    List.zipIdx_singleton, Nat.zero_add, List.filter_cons, List.filter_nil]
  split <;> rfl

/-- What a merge holds more after items were taken in. -/
structure Took (items : List Item) (merged after : Merged) : Prop where
  entries : after.entries.toList =
    merged.entries.toList ++ (placed merged.payload.size (survivors items)).map keptAt
  payload : after.payload = merged.payload ++ packed (survivors items)
  count : after.skipped + after.entries.size = merged.skipped + merged.entries.size + items.length
  tables : merged.Tabled → after.Tabled

/-- Code that survives is for preloading as it is kept exactly if it was before. -/
theorem isPreloadCode_of_survives {entry : Entry} (h : entry.survives = true) (offset : Nat) :
    ((keptEntry entry offset).kind == .code && (keptEntry entry offset).flags.forPreload) =
      entry.isPreloadCode := by
  have hentrant : entry.flags.forPreload = true → entry.flags.notEntrant = false := by
    intro hpreload
    simp only [Entry.survives, hpreload, Bool.and_true, Bool.and_eq_true, Bool.not_eq_true'] at h
    exact h.2
  show (entry.kind == .code && entry.flags.forPreload) = _
  simp only [Entry.isPreloadCode, Entry.isEntrant]
  cases hpreload : entry.flags.forPreload with
  | false => simp
  | true => simp [hentrant hpreload]

variable {merged : Merged}

/-- What does not survive is left out. -/
theorem absorbItem_of_not_survives (merged : Merged) (h : item.entry.survives = false) :
    ∃ after, merged.absorbItem item = .ok after ∧ after.payload.size = merged.payload.size ∧
      Took [item] merged after := by
  refine ⟨{ merged with skipped := merged.skipped + 1 }, ?_, rfl, ?_⟩
  · simp only [absorbItem, absorb, h, Bool.not_false, if_true]
  · have hnone : survivors [item] = [] := by simp [survivors, h]
    refine ⟨by simp [hnone, placed], by simp [hnone, packed], ?_, fun htabled => ⟨htabled.search,
      htabled.preload⟩⟩
    show merged.skipped + 1 + merged.entries.size = _
    rw [List.length_singleton]
    omega

/-- **What survives and fits is taken in behind what is there.** -/
theorem absorbItem_of_fits (haligned : merged.payload.size % dataAlignment = 0)
    (h : item.entry.survives = true) (hfits : Fits (item, merged.payload.size)) :
    ∃ after, merged.absorbItem item = .ok after ∧
      after.payload.size = merged.payload.size + alignUp item.entry.size.toNat ∧
        Took [item] merged after := by
  obtain ⟨bytes, hbytes, hsize⟩ := payload?_of_fits hfits
  have hone : survivors [item] = [item] := by simp [survivors, h]
  have hpacked : packed [item] = Container.padded bytes := by
    rw [packed_cons hbytes]
    exact Array.append_empty
  have hpadded : merged.payload ++ bytes ++
      zeros (paddingAfter (merged.payload.size + bytes.size)) =
      merged.payload ++ Container.padded bytes := by
    rw [paddingAfter_add haligned, Array.append_assoc]
    rfl
  have hrun : merged.absorbItem item = .ok {
      entries := merged.entries.push (keptEntry item.entry merged.payload.size)
      payload := merged.payload ++ Container.padded bytes
      search := merged.search ++ [⟨item.entry.id, UInt32.ofNat merged.entries.size⟩]
      preload := if item.entry.isPreloadCode then
        merged.preload.push (UInt32.ofNat merged.entries.size)
        else merged.preload
      skipped := merged.skipped } := by
    unfold Item.payload? at hbytes
    simp only [absorbItem, absorb, h, Bool.not_true, Bool.false_eq_true, if_false, hbytes, hpadded,
      if_neg (Nat.not_le.2 hfits.2)]
  refine ⟨_, hrun, ?_, ?_, ?_, ?_, fun htabled => ⟨?_, ?_⟩⟩
  · rw [Array.size_append, Container.size_padded, hsize]
  · rw [hone, Array.toList_push]
    rfl
  · rw [hone, hpacked]
  · show merged.skipped + (merged.entries.push _).size = _
    rw [Array.size_push, List.length_singleton]
    omega
  · rw [Array.toList_push, keysOf_concat, ← htabled.search, Array.length_toList]
    rfl
  · rw [Array.toList_push, preloadPlaces_concat, ← htabled.preload, isPreloadCode_of_survives h,
      Array.length_toList]
    cases item.entry.isPreloadCode <;> simp

/-- What survives and does not fit is refused. -/
theorem absorbItem_of_not_fits (h : item.entry.survives = true)
    (hfits : ¬Fits (item, merged.payload.size)) :
    ∃ cause, merged.absorbItem item = .error cause := by
  simp only [absorbItem, absorb, h, Bool.not_true, Bool.false_eq_true, if_false]
  split
  · exact ⟨_, rfl⟩
  · rename_i bytes hbytes
    have hinside := slice?_isSome.1 (Option.isSome_of_eq_some hbytes)
    have hword : wordSpace ≤ merged.payload.size := Nat.not_lt.1 fun hlt => hfits ⟨hinside, hlt⟩
    exact ⟨_, if_pos hword⟩

theorem Took.cons {middle after : Merged} (hfirst : Took [item] merged middle)
    (hsize : middle.payload.size =
      merged.payload.size + (if item.entry.survives then alignUp item.entry.size.toNat else 0))
    (hrest : Took items middle after) : Took (item :: items) merged after := by
  refine ⟨?_, ?_, ?_, fun htabled => hrest.tables (hfirst.tables htabled)⟩
  · rw [hrest.entries, hfirst.entries, hsize]
    cases hsurvives : item.entry.survives <;> simp [survivors, hsurvives, placed]
  · rw [hrest.payload, hfirst.payload]
    cases hsurvives : item.entry.survives <;>
      simp [survivors, hsurvives, packed, Array.append_assoc]
  · have h1 := hrest.count
    have h2 := hfirst.count
    rw [List.length_singleton] at h2
    rw [List.length_cons]
    omega

/-- **Items are taken in, the survivors where they are placed, or one of them does not fit.** -/
theorem foldlM_cases (haligned : merged.payload.size % dataAlignment = 0) (items : List Item) :
    (∃ after, items.foldlM absorbItem merged = .ok after ∧ Took items merged after ∧
      ∀ row ∈ placed merged.payload.size (survivors items), Fits row) ∨
    (∃ cause, items.foldlM absorbItem merged = .error cause) ∧
      ∃ row ∈ placed merged.payload.size (survivors items), ¬Fits row := by
  induction items generalizing merged with
  | nil =>
    refine .inl ⟨merged, rfl, ⟨?_, ?_, rfl, id⟩, fun row hmem => nomatch hmem⟩
    · exact (List.append_nil _).symm
    · exact Array.append_empty.symm
  | cons item items ih =>
    have hnext : ∀ middle, merged.absorbItem item = .ok middle →
        (item :: items).foldlM absorbItem merged = items.foldlM absorbItem middle := by
      intro middle hrun
      rw [List.foldlM_cons, hrun]
      rfl
    cases hsurvives : item.entry.survives with
    | false =>
      have hsame : survivors (item :: items) = survivors items := by simp [survivors, hsurvives]
      obtain ⟨middle, hrun, hsize, htook⟩ := absorbItem_of_not_survives merged hsurvives
      have hmiddle : middle.payload.size % dataAlignment = 0 := hsize ▸ haligned
      rw [hnext middle hrun, hsame, ← hsize]
      rcases ih hmiddle with ⟨after, hafter, htail, hfits⟩ | hrefused
      · exact .inl ⟨after, hafter, htook.cons (by rw [hsurvives]; exact hsize) htail, hfits⟩
      · exact .inr hrefused
    | true =>
      have hone : placed merged.payload.size (survivors (item :: items)) =
          (item, merged.payload.size) ::
          placed (merged.payload.size + alignUp item.entry.size.toNat) (survivors items) := by
        simp [survivors, hsurvives, placed]
      rw [hone]
      by_cases hfirst : Fits (item, merged.payload.size)
      · obtain ⟨middle, hrun, hsize, htook⟩ := absorbItem_of_fits haligned hsurvives hfirst
        have hmiddle : middle.payload.size % dataAlignment = 0 := by
          rw [hsize, Nat.add_mod, haligned, alignUp_mod]
          rfl
        rw [hnext middle hrun, ← hsize]
        rcases ih hmiddle with ⟨after, hafter, htail, hfits⟩ | ⟨hrefused, row, hmem, hnot⟩
        · exact .inl ⟨after, hafter, htook.cons (by rw [hsurvives]; exact hsize) htail,
            List.forall_mem_cons.2 ⟨hfirst, hfits⟩⟩
        · exact .inr ⟨hrefused, row, List.mem_cons_of_mem _ hmem, hnot⟩
      · obtain ⟨cause, hrun⟩ := absorbItem_of_not_fits hsurvives hfirst
        refine .inr ⟨⟨cause, ?_⟩, _, List.mem_cons_self, hfirst⟩
        rw [List.foldlM_cons, hrun]
        rfl

/-! ## 3. Keys in order -/

/-- Places of fewer entries than there are words are compared as words. -/
theorem ofNat_lt_of_mem {entries : List Entry} (hsize : entries.length < wordSpace)
    {a b : Entry × Nat} (ha : a ∈ entries.zipIdx) (hb : b ∈ entries.zipIdx) (hlt : a.2 < b.2) :
    UInt32.ofNat a.2 < UInt32.ofNat b.2 := by
  have hword : ∀ row ∈ entries.zipIdx, row.2 < wordSpace := fun row hmem =>
    Nat.lt_trans (List.getElem?_eq_some_iff.1 (List.mem_zipIdx_iff_getElem?.1 hmem)).1 hsize
  rw [UInt32.lt_iff_toNat_lt, toNat_ofNat_of_lt_wordSpace (hword a ha),
    toNat_ofNat_of_lt_wordSpace (hword b hb)]
  exact hlt

/-- The keys of entries point behind each other. -/
theorem pairwise_index_keysOf {entries : List Entry} (hsize : entries.length < wordSpace) :
    (keysOf entries).Pairwise fun a b => a.index < b.index := by
  rw [keysOf, List.pairwise_map]
  exact (pairwise_places entries).imp_of_mem fun ha hb hlt => ofNat_lt_of_mem hsize ha hb hlt

/-- **Keys that are sorted are in the order of their ids, and those with one id in the order of
    their places.** -/
theorem pairwise_sort_keysOf {entries : List Entry} (hsize : entries.length < wordSpace) :
    (sort (keysOf entries)).Pairwise fun a b => a.id < b.id ∨ a.id = b.id ∧ a.index < b.index := by
  rw [List.pairwise_iff_forall_sublist]
  intro a b hsub
  have hle : a.id ≤ b.id := List.pairwise_iff_forall_sublist.1 (pairwise_sort _) hsub
  rcases UInt32.lt_or_eq_of_le hle with hlt | heq
  · exact .inl hlt
  · -- Sorting keeps the order of the keys with one id.
    have hfilter : [a, b].filter (fun key => key.id == b.id) = [a, b] := by simp [heq]
    have hkept := hsub.filter fun key => key.id == b.id
    have hid : ∀ key : SearchKey, (key.id == b.id) = true → key.id = b.id := fun _ => eq_of_beq
    rw [hfilter, filter_sort _ hid] at hkept
    exact .inr ⟨heq, List.pairwise_iff_forall_sublist.1 (pairwise_index_keysOf hsize)
      (hkept.trans List.filter_sublist)⟩

/-! ## 4. What a merge holds -/

/-- The entries of a preload list are behind each other. -/
theorem pairwise_preloadPlaces {entries : List Entry} (hsize : entries.length < wordSpace) :
    (preloadPlaces entries).Pairwise (· < ·) := by
  rw [preloadPlaces, List.pairwise_map]
  refine ((pairwise_places entries).filter _).imp_of_mem fun ha hb hlt => ?_
  exact ofNat_lt_of_mem hsize (List.mem_of_mem_filter ha) (List.mem_of_mem_filter hb) hlt

/-- A merge packs items: its entries are theirs, in their order, each at its place, with the flags
    of the artifact and nothing of the run. Their bytes are there, one behind the other, with zeros
    between them. There is one key for each entry, sorted by id and then by place, and the code for
    preloading is listed in order. -/
structure Packs (merged : Merged) (items : List Item) : Prop where
  entries : merged.entries.toList = (placed 0 items).map fun (item, offset) =>
    { item.entry with
      offset := UInt32.ofNat offset
      flags :=
        { EntryFlags.none with
          forPreload := item.entry.flags.forPreload
          initBarriers := item.entry.flags.initBarriers
          ignoreDecompile := item.entry.flags.ignoreDecompile }
      next := none }
  places : ∀ row ∈ placed 0 items, row.2 < wordSpace ∧ row.2 % dataAlignment = 0
  apart : (placed 0 items).Pairwise fun a b => a.2 + a.1.entry.size.toNat ≤ b.2
  bytes : ∀ row ∈ placed 0 items, ∃ bytes, row.1.payload? = some bytes ∧
    merged.payload.slice? row.2 row.1.entry.size.toNat = some bytes
  gaps : ∀ place byte, merged.payload[place]? = some byte →
    (∀ row ∈ placed 0 items, place < row.2 ∨ row.2 + row.1.entry.size.toNat ≤ place) → byte = 0
  few : merged.entries.size < wordSpace
  keys : merged.search.Perm (keysOf merged.entries.toList)
  order : merged.search.Pairwise fun a b => a.id < b.id ∨ a.id = b.id ∧ a.index < b.index
  preload : merged.preload.toList = preloadPlaces merged.entries.toList
  ascending : merged.preload.toList.Pairwise (· < ·)

theorem length_placed (start : Nat) (items : List Item) :
    (placed start items).length = items.length := by
  induction items generalizing start with
  | nil => rfl
  | cons item items ih => rw [placed, List.length_cons, ih, List.length_cons]

/-- **What was taken in from nothing on, with its keys sorted, is packed.** -/
theorem Took.packs {after : Merged} (h : Took items empty after) (hcount : items.length < wordSpace)
    (hfits : ∀ row ∈ placed 0 (survivors items), Fits row) :
    Packs { after with search := sort after.search } (survivors items) := by
  have hpayload : after.payload = packed (survivors items) := h.payload.trans Array.empty_append
  have hentries : after.entries.toList = (placed 0 (survivors items)).map keptAt := h.entries
  have hfew : after.entries.toList.length < wordSpace := by
    rw [hentries, List.length_map, length_placed]
    exact Nat.lt_of_le_of_lt (List.length_filter_le _ _) hcount
  have htabled : after.Tabled := h.tables ⟨rfl, rfl⟩
  refine ⟨hentries, fun row hmem => ⟨(hfits row hmem).2, placed_mod rfl hmem⟩, pairwise_placed _ _,
    ?_, ?_, hfew, ?_, ?_, htabled.preload, htabled.preload ▸ pairwise_preloadPlaces hfew⟩
  · intro row hmem
    obtain ⟨bytes, hbytes, hpart⟩ := partAt_placed hfits (partAt_self _) hmem
    refine ⟨bytes, hbytes, ?_⟩
    rw [show row.1.entry.size.toNat = bytes.size from (size_of_slice? hbytes).symm]
    exact (hpayload ▸ hpart).slice?
  · intro place byte hbyte hgap
    refine eq_zero_of_packed hfits (i := place) (hpayload ▸ hbyte) fun row hmem => ?_
    rw [Nat.zero_add]
    exact hgap row hmem
  · exact htabled.search ▸ List.mergeSort_perm _ _
  · exact htabled.search ▸ pairwise_sort_keysOf hfew

/-- **A merge is refused exactly if a survivor does not fit where it is placed, and packs the
    survivors of both populations otherwise**; what it left out and what it holds are all entries
    together. -/
theorem merge_packs (loaded : Array Entry) (image : Bytes) (stored : Array Entry) (arena : Bytes)
    (hcount : loaded.size + stored.size < wordSpace) :
    let kept := survivors (itemsOf image loaded.toList ++ itemsOf arena stored.toList)
    ((∃ cause, ofPopulations loaded image stored arena = .error cause) ↔
      ∃ row ∈ placed 0 kept, row.1.source.size < row.1.entry.offset.toNat + row.1.entry.size.toNat ∨
        wordSpace ≤ row.2) ∧
    ∀ merged, ofPopulations loaded image stored arena = .ok merged →
      merged.Packs kept ∧ merged.skipped + merged.entries.size = loaded.size + stored.size := by
  intro kept
  have hnot : ∀ row, ¬Fits row ↔
      row.1.source.size < row.1.entry.offset.toNat + row.1.entry.size.toNat ∨
      wordSpace ≤ row.2 := by
    intro row
    rw [Fits, not_and_or, Nat.not_le, Nat.not_lt]
  have hlength : (itemsOf image loaded.toList ++ itemsOf arena stored.toList).length =
      loaded.size + stored.size := by
    simp only [itemsOf, List.length_append, List.length_map, Array.length_toList]
  simp only [← hnot]
  have hstart : empty.payload.size % dataAlignment = 0 := rfl
  rcases foldlM_cases hstart (itemsOf image loaded.toList ++ itemsOf arena stored.toList) with
    ⟨after, hafter, htook, hfits⟩ | ⟨⟨cause, hrefused⟩, hnofit⟩
  · rw [ofPopulations_eq, hafter]
    refine ⟨⟨?_, ?_⟩, fun merged hdone => ?_⟩
    · rintro ⟨_, ⟨⟩⟩
    · rintro ⟨row, hmem, hno⟩
      exact absurd (hfits row hmem) hno
    · cases hdone
      refine ⟨htook.packs (hlength ▸ hcount) hfits, ?_⟩
      have := htook.count
      rw [hlength] at this
      exact this.trans (Nat.zero_add _)
  · rw [ofPopulations_eq, hrefused]
    refine ⟨⟨fun _ => hnofit, fun _ => ⟨cause, rfl⟩⟩, ?_⟩
    rintro merged ⟨⟩

/-! An example: of four entries the first failed to load and the third is preload code that was
invalidated; the second may be entered again. -/

/-- Compiled code with these flags, and bytes from a place on. -/
def codeAt (offset size : UInt32) (flags : EntryFlags) : Entry :=
  { Entry.blank .code 7 with offset, size, flags }

/-- The entries that were loaded. -/
def mixedLoaded : Array Entry :=
  #[codeAt 0 4 { EntryFlags.none with loadFail := true },
    codeAt 1 3 { EntryFlags.none with notEntrant := true }]

/-- The entries that were stored. -/
def mixedStored : Array Entry :=
  #[codeAt 0 0 { EntryFlags.none with notEntrant := true, forPreload := true },
    codeAt 1 2 { EntryFlags.none with forPreload := true }]

theorem merge_packs_mixed :
    mixedLoaded.size + mixedStored.size < wordSpace ∧
      (∃ merged, ofPopulations mixedLoaded #[1, 2, 3, 4] mixedStored #[5, 6, 7] = .ok merged ∧
        merged.skipped + merged.entries.size = 4 ∧ merged.entries.toList.map (·.offset) = [0, 8] ∧
        merged.preload.toList = [1] ∧ merged.payload.slice? 8 2 = some #[6, 7]) ∧
      ∃ cause, ofPopulations mixedLoaded #[1, 2, 3] mixedStored #[5, 6, 7] = .error cause := by
  have hcount : mixedLoaded.size + mixedStored.size < wordSpace := by decide
  obtain ⟨hrefused, hpacks⟩ := merge_packs mixedLoaded #[1, 2, 3, 4] mixedStored #[5, 6, 7] hcount
  refine ⟨hcount, ?_, (merge_packs mixedLoaded #[1, 2, 3] mixedStored #[5, 6, 7] hcount).1.2
    (by decide)⟩
  cases hmerge : ofPopulations mixedLoaded #[1, 2, 3, 4] mixedStored #[5, 6, 7] with
  | error cause =>
    exact absurd (hrefused.1 ⟨cause, hmerge⟩) (by decide)
  | ok merged =>
    obtain ⟨hpacked, hall⟩ := hpacks merged hmerge
    refine ⟨merged, rfl, hall, ?_, ?_, ?_⟩
    · rw [hpacked.entries]
      decide
    · rw [hpacked.preload, hpacked.entries]
      decide
    · obtain ⟨bytes, hbytes, hslice⟩ := hpacked.bytes _ (List.mem_cons_of_mem _ List.mem_cons_self)
      cases hbytes
      exact hslice

end Merged

end CodeVault
