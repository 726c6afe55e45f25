import CodeVault.Proofs.Container.Assembly
import CodeVault.Proofs.Index.Merge

/-!
# Containers that were assembled are read back

* `numbers` are the counts and places that a container tells; **assembling is refused for the first
  of them that is no word, and for nothing else** (`refusedFor_build`). All of them are at most the
  size of the container, if its entries are those of a merge (`le_finish`);
* the numbers of entries by kind are counted without wrapping (`KindCounts.counts_foldl`);
* `ReadsBack` says what is found in a container: the entries of a merge, all moved by the same
  number of bytes, each with its bytes, and the tables of the merge. **What was assembled of a merge
  is read back so** (`assemble_readsBack`).
-/

namespace CodeVault

open Bytes Cursor

/-! ## 1. Numbers by kind -/

namespace KindCounts

/-- The counts are the numbers of entries by kind. -/
structure Counts (counts : KindCounts) (entries : List Entry) : Prop where
  adapters : counts.adapters.toNat = entries.countP (·.kind == .adapter)
  stubs : counts.stubs.toNat = entries.countP (·.kind == .stub)
  blobs : counts.blobs.toNat = entries.countP (·.kind.isBlob)
  code : counts.code.toNat = entries.countP (·.kind == .code)

/-- **A count that goes up by one for every entry of some kinds is the number of these entries**, if
    all entries fit a word. -/
theorem toNat_foldl (count : KindCounts → UInt32) (p : EntryKind → Bool)
    (hstep : ∀ counts kind, count (record counts kind) = if p kind then
      count counts + 1 else count counts)
    {entries : List Entry} {counts : KindCounts}
    (hlt : (count counts).toNat + entries.length < wordSpace) :
    (count (entries.foldl (fun counts entry => counts.record entry.kind) counts)).toNat =
      (count counts).toNat + entries.countP (p ·.kind) := by
  induction entries generalizing counts with
  | nil => rfl
  | cons entry entries ih =>
    rw [List.length_cons] at hlt
    have hrecord : (count (counts.record entry.kind)).toNat =
        (count counts).toNat + (if p entry.kind then 1 else 0) := by
      rw [hstep]
      cases p entry.kind with
      | false => rfl
      | true =>
        simp only [if_true, UInt32.toNat_add, UInt32.toNat_one]
        exact Nat.mod_eq_of_lt (by simp only [wordSpace] at hlt; omega)
    have hle : (if p entry.kind = true then 1 else 0) ≤ 1 := by split <;> decide
    rw [List.foldl_cons, ih (by omega), hrecord, List.countP_cons]
    omega

/-- **The numbers by kind are counted right**, if all entries fit a word. -/
theorem counts_foldl {entries : List Entry} (hlt : entries.length < wordSpace) :
    (entries.foldl (fun counts entry => counts.record entry.kind) zero).Counts entries := by
  have hof : ∀ (count : KindCounts → UInt32) (p : EntryKind → Bool), count zero = 0 →
      (∀ counts kind, count (record counts kind) = if p kind then
        count counts + 1 else count counts) →
      (count (entries.foldl (fun counts entry => counts.record entry.kind) zero)).toNat =
        entries.countP (p ·.kind) := by
    intro count p hzero hstep
    have hnone : (count zero).toNat = 0 := by rw [hzero, UInt32.toNat_zero]
    rw [toNat_foldl count p hstep (by omega), hnone, Nat.zero_add]
  exact ⟨hof adapters (· == .adapter) rfl fun _ kind => by cases kind <;> rfl,
    hof stubs (· == .stub) rfl fun _ kind => by cases kind <;> rfl,
    hof blobs EntryKind.isBlob rfl fun _ kind => by cases kind <;> rfl,
    hof code (· == .code) rfl fun _ kind => by cases kind <;> rfl⟩

end KindCounts

namespace Container

variable {α : Type} {strings : List CText} {merged : Merged} {fingerprint : Fingerprint}
  {now : UInt64}

/-! ## 2. Refusals -/

/-- The counts and places of a container, in the order in which they are told. -/
def numbers (strings : List CText) (merged : Merged) : List Nat :=
  let layout := Layout.ofParts strings merged
  strings.length :: layout.strings :: merged.preload.size :: layout.preload :: layout.search ::
    merged.entries.size :: layout.entries ::
    (merged.entries.toList.map (layout.payload + ·.offset.toNat) ++ [layout.finish])

/-- An outcome is an error exactly if one of these numbers is no word, and is refused for the first
    one then. -/
def RefusedFor (numbers : List Nat) (outcome : Except CacheError α) : Prop :=
  ∀ cause, outcome = .error cause ↔
    ∃ n, numbers.find? (wordSpace ≤ ·) = some n ∧ cause = .layout (.containerOffset n)

theorem oversize_of_find? {n : Nat} {numbers : List Nat}
    (h : numbers.find? (wordSpace ≤ ·) = some n) :
    n ∈ numbers ∧ wordSpace ≤ n :=
  ⟨List.mem_of_find?_eq_some h, by simpa using List.find?_some h⟩

theorem refusedFor_ok (a : α) : RefusedFor [] (.ok a : Except CacheError α) := by
  intro cause
  simp

theorem RefusedFor.word {n : Nat} {rest : List Nat} {k : UInt32 → Except CacheError α}
    (hk : ∀ w, RefusedFor rest (k w)) : RefusedFor (n :: rest) (word n >>= k) := by
  intro cause
  by_cases hn : n < wordSpace
  · have hword : Container.word n = .ok (UInt32.ofNat n) := if_pos hn
    rw [hword, List.find?_cons_of_neg (by simpa using hn)]
    exact hk (UInt32.ofNat n) cause
  · have hword : Container.word n = .error (.layout (.containerOffset n)) := if_neg hn
    rw [hword, List.find?_cons_of_pos (by simpa using hn)]
    constructor
    · rintro ⟨⟩
      exact ⟨n, rfl, rfl⟩
    · rintro ⟨_, ⟨⟩, rfl⟩
      rfl

theorem RefusedFor.mapM_rebase {payloadAt : Nat} {rest : List Nat} {entries : List Entry}
    {k : List Entry → Except CacheError α} (hk : ∀ placed, RefusedFor rest (k placed)) :
    RefusedFor (entries.map (payloadAt + ·.offset.toNat) ++ rest)
      (entries.mapM (rebase payloadAt) >>= k) := by
  induction entries generalizing k with
  | nil => exact hk []
  | cons entry entries ih =>
    simp only [List.mapM_cons, rebase, bind_assoc, pure_bind]
    exact RefusedFor.word fun offset => ih fun placed => hk _

/-- **A container is refused for the first of its numbers that is no word, and for nothing
    else.** -/
theorem refusedFor_build :
    RefusedFor (numbers strings merged) (build strings merged fingerprint now) := by
  refine .word fun _ => .word fun _ => .word fun _ => .word fun _ => .word fun _ => .word fun _ =>
    .word fun _ => ?_
  exact .mapM_rebase fun _ => .word fun _ => refusedFor_ok _

/-- **All numbers of a container are at most its size**, if its entries are those of a merge. -/
theorem le_finish {items : List Item} (hholds : merged.Holds items) {n : Nat}
    (hn : n ∈ numbers strings merged) :
    n ≤ (Layout.ofParts strings merged).finish := by
  obtain ⟨r2, r3, r4, r5⟩ := Layout.places_le strings merged
  have hstrings : strings.length ≤ (Layout.ofParts strings merged).preload := by
    have hleast : ∀ piece ∈ strings.map CText.terminated, 1 ≤ piece.size := by
      intro piece hmem
      obtain ⟨text, -, rfl⟩ := List.mem_map.1 hmem
      simp [CText.terminated]
    have hlength := length_mul_le_size_join hleast
    rw [List.length_map, Nat.mul_one, ← Laid.stringBytes_eq] at hlength
    exact Nat.le_trans hlength (Nat.le_trans (Nat.le_add_left _ _) (le_alignUp _))
  have hfront : (Layout.ofParts strings merged).strings ≤ (Layout.ofParts strings merged).preload :=
    Nat.le_trans (Nat.le_add_right _ _) (le_alignUp _)
  have hpreload : (Layout.ofParts strings merged).preload + 4 * merged.preload.size ≤
      (Layout.ofParts strings merged).search := le_alignUp _
  have hentries : (Layout.ofParts strings merged).entries + 56 * merged.entries.size ≤
      (Layout.ofParts strings merged).payload := le_alignUp _
  have hplaced : (∃ entry ∈ merged.entries.toList,
      (Layout.ofParts strings merged).payload + entry.offset.toNat = n) →
      n ≤ (Layout.ofParts strings merged).payload + merged.payload.size := by
    rintro ⟨entry, hmem, rfl⟩
    obtain ⟨item, -, offset, bytes, hlt, rfl, -, hpart⟩ := exists_of_forall₂ hholds.entries hmem
    have hoffset : (Merged.keptEntry item.entry offset).offset.toNat = offset :=
      toNat_ofNat_of_lt_wordSpace hlt
    have hinside := hpart.le
    rw [hoffset]
    omega
  have hfinish : (Layout.ofParts strings merged).finish =
      (Layout.ofParts strings merged).payload + merged.payload.size := rfl
  simp only [numbers, List.mem_cons, List.mem_append, List.mem_map, List.not_mem_nil, or_false]
    at hn
  rcases hn with rfl | rfl | rfl | rfl | rfl | rfl | rfl | hentry | rfl
  any_goals omega
  exact hplaced hentry

/-- **Assembling a container is refused for the first of its numbers that is no word, and for
    nothing else.** -/
theorem assemble_eq_error {fault : Fault CacheError} :
    assemble strings merged fingerprint now = .error fault ↔
      ∃ n, (numbers strings merged).find? (wordSpace ≤ ·) = some n ∧
        fault = .error (.layout (.containerOffset n)) := by
  have hrefused : RefusedFor (numbers strings merged) (build strings merged fingerprint now) :=
    refusedFor_build
  rw [assemble_eq]
  cases hbuild : build strings merged fingerprint now with
  | ok image =>
    constructor
    · rintro ⟨⟩
    · rintro ⟨n, hfind, -⟩
      cases hbuild.symm.trans ((hrefused _).2 ⟨n, hfind, rfl⟩)
  | error cause =>
    obtain ⟨n, hfind, rfl⟩ := (hrefused cause).1 hbuild
    constructor
    · rintro ⟨⟩
      exact ⟨n, hfind, rfl⟩
    · rintro ⟨m, hsame, rfl⟩
      cases hfind.symm.trans hsame
      rfl

/-- **A container of a merge is refused exactly if its size is no word.** -/
theorem assemble_error_iff {items : List Item} (hholds : merged.Holds items) :
    (∃ fault, assemble strings merged fingerprint now = .error fault) ↔
      wordSpace ≤ (Layout.ofParts strings merged).finish := by
  constructor
  · rintro ⟨fault, hfault⟩
    obtain ⟨n, hfind, -⟩ := assemble_eq_error.1 hfault
    obtain ⟨hmem, hlarge⟩ := oversize_of_find? hfind
    exact Nat.le_trans hlarge (le_finish hholds hmem)
  · intro hsize
    have hmem : (Layout.ofParts strings merged).finish ∈ numbers strings merged := by simp [numbers]
    have hsome : ((numbers strings merged).find? (wordSpace ≤ ·)).isSome :=
      List.find?_isSome.2 ⟨_, hmem, by simpa using hsize⟩
    obtain ⟨n, hfind⟩ := Option.isSome_iff_exists.1 hsome
    exact ⟨_, assemble_eq_error.2 ⟨n, hfind, rfl⟩⟩

/-! ## 3. Reading back -/

/-- An entry of a merge as it is in a container whose payloads start at `base`. -/
def movedBy (base : Nat) (entry : Entry) : Entry :=
  { entry with offset := UInt32.ofNat (base + entry.offset.toNat) }

theorem eq_map_of_rebased {base : Nat} {entries placed : List Entry}
    (h : List.Forall₂ (Rebased base) entries placed) :
    placed = entries.map (movedBy base) ∧ ∀ entry ∈ entries,
      base + entry.offset.toNat < wordSpace := by
  induction h with
  | nil => exact ⟨rfl, fun _ hmem => nomatch hmem⟩
  | cons hfirst hrest ih =>
    obtain ⟨hlt, rfl⟩ := hfirst
    obtain ⟨rfl, hall⟩ := ih
    exact ⟨rfl, List.forall_mem_cons.2 ⟨hlt, hall⟩⟩

/-- The parts of a container are behind each other, in this order. -/
structure InOrder (strings : List CText) (merged : Merged) (header : Header)
    (base size : Nat) : Prop where
  stringsAt : Header.encodedSize ≤ header.strings.offset.toNat
  preloadAt : header.strings.offset.toNat + (Layout.stringBytes strings).size ≤
    header.preload.offset.toNat
  searchAt : header.preload.offset.toNat + 4 * merged.preload.size ≤ header.searchOffset.toNat
  entriesAt : header.searchOffset.toNat + SearchKey.size * merged.search.length ≤
    header.entries.offset.toNat
  payloadAt : header.entries.offset.toNat + Entry.encodedSize * merged.entries.size ≤ base
  finish : base + merged.payload.size = size

/-- Bytes are a container in which a merge is found again, its payloads from `base` on. -/
structure ReadsBack (strings : List CText) (merged : Merged) (fingerprint : Fingerprint)
    (image : Bytes) (header : Header) (base : Nat) : Prop where
  accepted : ofBytes image = .ok ⟨image, header⟩
  fingerprint : header.fingerprint = fingerprint
  count : header.entries.count.toNat = merged.entries.size
  counts : header.counts.Counts merged.entries.toList
  word : ∀ entry ∈ merged.entries.toList, base + entry.offset.toNat < wordSpace
  entries : Container.entries ⟨image, header⟩ = .ok (merged.entries.toList.map (movedBy base))
  payload : ∀ entry ∈ merged.entries.toList, ∃ bytes,
    merged.payload.slice? entry.offset.toNat entry.size.toNat = some bytes ∧
      Container.payload ⟨image, header⟩ (movedBy base entry) = .ok bytes
  searchKeys : Container.searchKeys ⟨image, header⟩ = .ok merged.search
  preloadIndices : Container.preloadIndices ⟨image, header⟩ = .ok merged.preload.toList
  index : Container.loadIndex ⟨image, header⟩ =
    .ok ⟨(merged.entries.toList.map (movedBy base)).toArray, merged.search.toArray,
      merged.preload, #[]⟩
  inOrder : InOrder strings merged header base image.size

variable {image : Bytes} {header : Header} {entries : List Entry} {items : List Item}

theorem Laid.inOrder (h : Laid strings merged fingerprint image header entries) :
    InOrder strings merged header (Layout.ofParts strings merged).payload image.size := by
  refine ⟨?_, ?_, ?_, ?_, ?_, ?_⟩
  · rw [h.stringsAt]
    exact Nat.le_refl _
  · rw [h.stringsAt, h.preloadAt]
    exact le_alignUp _
  · rw [h.preloadAt, h.searchAt]
    exact le_alignUp _
  · rw [h.searchAt, h.entriesAt]
    exact le_alignUp _
  · rw [h.entriesAt]
    exact le_alignUp _
  · rw [h.parts.size]
    rfl

/-- **A container of a merge whose entries are all of some kind is read back.** -/
theorem Laid.readsBack {keys : List SearchKey}
    (h : Laid strings merged fingerprint image header entries) (hholds : merged.Holds items)
    (hsorted : merged.search = SearchTable.sort keys)
    (hkinds : ∀ entry ∈ merged.entries.toList, entry.kind ≠ .none) :
    ReadsBack strings merged fingerprint image header (Layout.ofParts strings merged).payload := by
  obtain ⟨rfl, hword⟩ := eq_map_of_rebased h.entries
  have hlength : merged.entries.toList.length < wordSpace := by
    rw [Array.length_toList, ← h.entryCount]
    exact header.entries.count.toNat_lt
  refine ⟨h.ofBytes_ok hkinds, h.fingerprint, h.entryCount, ?_, hword, h.entries_ok hholds,
    fun entry hmem => ?_, h.searchKeys_ok hholds.count, h.preloadIndices_ok,
    h.loadIndex_ok hholds hsorted, h.inOrder⟩
  · rw [h.counts, ← Array.foldl_toList]
    exact KindCounts.counts_foldl hlength
  · obtain ⟨item, -, offset, bytes, hlt, rfl, hbytes, hpart⟩ :=
      exists_of_forall₂ hholds.entries hmem
    have hoffset : (Merged.keptEntry item.entry offset).offset.toNat = offset :=
      toNat_ofNat_of_lt_wordSpace hlt
    have hsize : bytes.size = (Merged.keptEntry item.entry offset).size.toNat :=
      size_of_slice? hbytes
    have hplace := readAt_of_partAt (h.parts.payloadAt.trans hpart)
    have hmoved := hword _ hmem
    rw [hoffset] at hmoved
    refine ⟨bytes, by rw [hoffset, ← hsize]; exact hpart.slice?, ?_⟩
    show image.readAt (UInt32.ofNat _).toNat (Merged.keptEntry item.entry offset).size.toNat = _
    rw [hoffset, toNat_ofNat_of_lt_wordSpace hmoved, ← hsize, hplace]

/-- An entry of a merge is of the kind of an entry that was merged. -/
theorem kind_of_holds (hholds : merged.Holds items) {entry : Entry}
    (hmem : entry ∈ merged.entries.toList) :
    ∃ item ∈ items, entry.kind = item.entry.kind := by
  obtain ⟨item, hitem, offset, bytes, -, rfl, -⟩ := exists_of_forall₂ hholds.entries hmem
  exact ⟨item, List.mem_of_mem_filter hitem, rfl⟩

/-- **A container of a merge is refused exactly if its size is no word, and then because one of its
    numbers is none; otherwise what is assembled is read back.** -/
theorem assemble_readsBack {loaded stored : Array Entry} {source arena : Bytes}
    (hmerge : Merged.ofPopulations loaded source stored arena = .ok merged)
    (hloaded : ∀ entry ∈ loaded, entry.kind ≠ .none)
    (hstored : ∀ entry ∈ stored, entry.kind ≠ .none) (strings : List CText)
    (fingerprint : Fingerprint) (now : UInt64) :
    ((∃ fault, assemble strings merged fingerprint now = .error fault) ↔
        wordSpace ≤ (Layout.ofParts strings merged).finish) ∧
      (∀ fault, assemble strings merged fingerprint now = .error fault →
        ∃ n ∈ numbers strings merged, wordSpace ≤ n ∧
          fault = .error (.layout (.containerOffset n))) ∧
      ∀ image, assemble strings merged fingerprint now = .ok image →
        ∃ header base, ReadsBack strings merged fingerprint image header base := by
  have hmerged : EntryIndex.merge ⟨loaded, #[], #[], stored⟩ source arena = .ok merged := hmerge
  obtain ⟨hholds, keys, hsorted⟩ := Merged.holds_of_merge hmerged
  refine ⟨assemble_error_iff hholds, fun fault hfault => ?_, fun image himage => ?_⟩
  · obtain ⟨n, hfind, hcause⟩ := assemble_eq_error.1 hfault
    obtain ⟨hmem, hlarge⟩ := oversize_of_find? hfind
    exact ⟨n, hmem, hlarge, hcause⟩
  · rw [assemble_eq, liftError_eq_ok] at himage
    obtain ⟨header, entries, hlaid⟩ := laid_of_build himage
    refine ⟨header, _, hlaid.readsBack hholds hsorted fun entry hmem => ?_⟩
    obtain ⟨item, hitem, hkind⟩ := kind_of_holds hholds hmem
    rw [hkind]
    simp only [EntryIndex.items, Merged.itemsOf, List.mem_append, List.mem_map,
      Array.mem_toList_iff] at hitem
    rcases hitem with ⟨entry, hentry, rfl⟩ | ⟨entry, hentry, rfl⟩
    · exact hloaded entry hentry
    · exact hstored entry hentry

/-- A stub, as it was loaded. -/
def loadedStub : Entry := { Entry.blank .stub 4 with size := 3 }

/-- Code that is to be installed before its first call, as it was stored. -/
def storedCode : Entry :=
  { Entry.blank .code 9 with
    offset := 1, size := 2, flags := { EntryFlags.none with forPreload := true } }

/-- A string of one letter. -/
def letter : CText := ⟨#[97], by simp⟩

/-- The merge of both. -/
def mergedPair : Merged :=
  ⟨#[loadedStub, { storedCode with offset := 8 }],
    #[1, 2, 3, 0, 0, 0, 0, 0, 5, 6, 0, 0, 0, 0, 0, 0], [⟨4, 0⟩, ⟨9, 1⟩], #[1], 0⟩

theorem ofPopulations_pair :
    Merged.ofPopulations #[loadedStub] #[1, 2, 3] #[storedCode] #[4, 5, 6] = .ok mergedPair := by
  have hkeys : SearchTable.sort mergedPair.search = mergedPair.search :=
    List.mergeSort_of_pairwise (by decide)
  have hall : ([loadedStub].foldlM (Merged.absorb #[1, 2, 3]) .empty >>=
      [storedCode].foldlM (Merged.absorb #[4, 5, 6])) = .ok mergedPair := by decide +kernel
  obtain ⟨kept, hkept, hrest⟩ := except_bind_eq_ok.1 hall
  refine except_bind_eq_ok.2 ⟨kept, hkept, except_bind_eq_ok.2 ⟨mergedPair, hrest, ?_⟩⟩
  rw [hkeys]
  rfl

theorem assemble_readsBack_pair :
    Merged.ofPopulations #[loadedStub] #[1, 2, 3] #[storedCode] #[4, 5, 6] = .ok mergedPair ∧
      ∃ image header base, assemble [letter] mergedPair ⟨.serial, 0, 0, 0, 0, 0⟩ 7 = .ok image ∧
        ofBytes image = .ok ⟨image, header⟩ ∧ header.counts.code.toNat = 1 ∧
        Container.preloadIndices ⟨image, header⟩ = .ok [1] ∧
        Container.payload ⟨image, header⟩ (movedBy base { storedCode with offset := 8 }) =
          .ok #[5, 6] := by
  have hloaded : ∀ entry ∈ #[loadedStub], entry.kind ≠ .none := by decide
  have hstored : ∀ entry ∈ #[storedCode], entry.kind ≠ .none := by decide
  obtain ⟨hrefused, -, hread⟩ := assemble_readsBack ofPopulations_pair hloaded hstored [letter]
    ⟨.serial, 0, 0, 0, 0, 0⟩ 7
  refine ⟨ofPopulations_pair, ?_⟩
  cases himage : assemble [letter] mergedPair ⟨.serial, 0, 0, 0, 0, 0⟩ 7 with
  | error fault => exact absurd (hrefused.1 ⟨fault, himage⟩) (by decide +kernel)
  | ok image =>
    obtain ⟨header, base, hback⟩ := hread image himage
    obtain ⟨bytes, hbytes, hpayload⟩ := hback.payload { storedCode with offset := 8 } (by decide)
    have hcode : bytes = #[5, 6] := by
      have hslice : mergedPair.payload.slice? 8 2 = some #[5, 6] := by decide
      cases hbytes.symm.trans hslice
      rfl
    exact ⟨image, header, base, rfl, hback.accepted, hback.counts.code, hback.preloadIndices,
      hcode ▸ hpayload⟩

end Container

end CodeVault
