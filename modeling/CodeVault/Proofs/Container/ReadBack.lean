import CodeVault.Proofs.Container.Header
import CodeVault.Proofs.Index.SearchTable
import CodeVault.Proofs.Lists

/-!
# Containers are read back

* `Laid` says how a container that was built lies in its bytes;
* **what was built is accepted, and its strings, keys, preload list, entries and payloads are read
  back** (`ofBytes_ok`, `rawStrings_ok`, `loadIndex_ok`, `carries`).
-/

namespace CodeVault

open Bytes Cursor

/-- A list of outcomes ends well when each of them does. -/
theorem forall₂_of_mapM {ε α β : Type} {f : α → Except ε β} {items : List α} {answers : List β}
    (h : items.mapM f = .ok answers) : List.Forall₂ (fun a b => f a = .ok b) items answers := by
  induction items generalizing answers with
  | nil =>
    cases h
    exact .nil
  | cons item items ih =>
    rw [List.mapM_cons] at h
    obtain ⟨first, hfirst, h⟩ := except_bind_eq_ok.1 h
    obtain ⟨rest, hrest, hdone⟩ := except_bind_eq_ok.1 h
    cases hdone
    exact .cons hfirst (ih hrest)

/-- The bytes of a text are the UTF-8 form of something. -/
def CText.IsText (text : CText) : Prop := ∃ decoded, Utf8.decode text.val = .ok decoded

/-- An entry is kept as another: it tells the same, but for its offset, what belonged to the run and
    its link. -/
def Entry.KeptAs (entry kept : Entry) : Prop :=
  kept =
    { entry with
      offset := kept.offset
      flags :=
        { EntryFlags.none with
          forPreload := entry.flags.forPreload
          initBarriers := entry.flags.initBarriers
          ignoreDecompile := entry.flags.ignoreDecompile }
      next := none }

/-- An entry of a container carries an item on: the entry of the item is kept as it, and it has the
    same bytes. -/
structure Item.CarriedBy (container : Container) (item : Item) (entry : Entry) : Prop where
  kept : item.entry.KeptAs entry
  payload : ∃ bytes, item.payload? = some bytes ∧ container.payload entry = .ok bytes

theorem Entry.KeptAs.persisted {entry kept : Entry} (h : entry.KeptAs kept) :
    kept.persisted = kept := by
  rw [h]
  rfl

namespace Container

/-! ## 1. How a container lies in its bytes -/

theorem word_eq_ok {n : Nat} {w : UInt32} :
    word n = .ok w ↔ n < wordSpace ∧ w = UInt32.ofNat n := by
  unfold word
  split
  · rename_i h
    simp [h, eq_comm]
  · rename_i h
    simp [h]

theorem toNat_of_word {n : Nat} {w : UInt32} (h : word n = .ok w) : w.toNat = n := by
  obtain ⟨hlt, rfl⟩ := word_eq_ok.1 h
  exact toNat_ofNat_of_lt_wordSpace hlt

/-- An entry of a merge as it is put into a container whose payloads start at a place. -/
def Rebased (payloadAt : Nat) (entry placed : Entry) : Prop :=
  payloadAt + entry.offset.toNat < wordSpace ∧
    placed = { entry with offset := UInt32.ofNat (payloadAt + entry.offset.toNat) }

theorem rebased_of_rebase {payloadAt : Nat} {entry placed : Entry}
    (h : rebase payloadAt entry = .ok placed) : Rebased payloadAt entry placed := by
  obtain ⟨offset, hword, hdone⟩ := except_bind_eq_ok.1 h
  cases hdone
  obtain ⟨hlt, rfl⟩ := word_eq_ok.1 hword
  exact ⟨hlt, rfl⟩

/-- The bytes of the preload list. -/
def preloadBytes (merged : Merged) : Bytes := join (merged.preload.toList.map ofU32)

/-- The bytes of the keys. -/
def searchBytes (merged : Merged) : Bytes := join (merged.search.map SearchKey.encode)

/-- The bytes of entries. -/
def entryBytes (entries : List Entry) : Bytes := join (entries.map Entry.encode)

/-- The string table of a container as bytes, whether or not they are text. -/
def rawStrings (container : Container) : Except CacheError (List CText) :=
  runAt container.bytes container.header.strings.offset.toNat
    (readMany readTerminated container.header.strings.count.toNat)

/-- How a container of strings and a merge lies in its bytes, with this header and these entries. -/
structure Laid (strings : List CText) (merged : Merged) (fingerprint : Fingerprint) (image : Bytes)
    (header : Header) (entries : List Entry) : Prop where
  bytes : image = header.encode ++ (padded (Layout.stringBytes strings) ++
    (padded (preloadBytes merged) ++ (padded (searchBytes merged) ++
      (padded (entryBytes entries) ++ merged.payload))))
  version : header.version = Header.formatVersion
  fingerprint : header.fingerprint = fingerprint
  size : header.size.toNat = (Layout.ofParts strings merged).finish
  stringCount : header.strings.count.toNat = strings.length
  stringsAt : header.strings.offset.toNat = (Layout.ofParts strings merged).strings
  preloadCount : header.preload.count.toNat = merged.preload.size
  preloadAt : header.preload.offset.toNat = (Layout.ofParts strings merged).preload
  searchAt : header.searchOffset.toNat = (Layout.ofParts strings merged).search
  entryCount : header.entries.count.toNat = merged.entries.size
  entriesAt : header.entries.offset.toNat = (Layout.ofParts strings merged).entries
  counts : header.counts = merged.entries.foldl (fun counts entry => counts.record entry.kind) .zero
  entries : List.Forall₂ (Rebased (Layout.ofParts strings merged).payload) merged.entries.toList
    entries

/-- **What was built lies so, and the same is built at every time**, with that time in the
    header. -/
theorem built_of_build {strings : List CText} {merged : Merged} {fingerprint : Fingerprint}
    {now : UInt64} {image : Bytes} (h : build strings merged fingerprint now = .ok image) :
    ∃ header entries rest, image = header.encode ++ rest ∧
      Laid strings merged fingerprint image header entries ∧
      ∀ time, build strings merged fingerprint time =
        .ok ({ header with createdAt := time }.encode ++ rest) := by
  obtain ⟨stringCount, h1, h⟩ := except_bind_eq_ok.1 h
  obtain ⟨stringsAt, h2, h⟩ := except_bind_eq_ok.1 h
  obtain ⟨preloadCount, h3, h⟩ := except_bind_eq_ok.1 h
  obtain ⟨preloadAt, h4, h⟩ := except_bind_eq_ok.1 h
  obtain ⟨searchAt, h5, h⟩ := except_bind_eq_ok.1 h
  obtain ⟨entryCount, h6, h⟩ := except_bind_eq_ok.1 h
  obtain ⟨entriesAt, h7, h⟩ := except_bind_eq_ok.1 h
  obtain ⟨entries, hentries, h⟩ := except_bind_eq_ok.1 h
  obtain ⟨size, h8, hdone⟩ := except_bind_eq_ok.1 h
  cases hdone
  refine ⟨{ Header.blank fingerprint now with
      size
      strings := ⟨stringCount, stringsAt⟩
      entries := ⟨entryCount, entriesAt⟩
      searchOffset := searchAt
      preload := ⟨preloadCount, preloadAt⟩
      counts := merged.entries.foldl (fun counts entry => counts.record entry.kind) .zero },
    entries, _, by simp only [Array.append_assoc]; rfl, ⟨?_, rfl, rfl, toNat_of_word h8,
      toNat_of_word h1, toNat_of_word h2, toNat_of_word h3, toNat_of_word h4, toNat_of_word h5,
      toNat_of_word h6, toNat_of_word h7, rfl, (forall₂_of_mapM hentries).imp fun _ _ =>
        rebased_of_rebase⟩, fun time => ?_⟩
  · rw [toArray_words]
    simp only [toArray_flatMap, preloadBytes, searchBytes, entryBytes, Array.append_assoc]
  · refine except_bind_eq_ok.2 ⟨_, h1, except_bind_eq_ok.2 ⟨_, h2, except_bind_eq_ok.2 ⟨_, h3, ?_⟩⟩⟩
    refine except_bind_eq_ok.2 ⟨_, h4, except_bind_eq_ok.2 ⟨_, h5, except_bind_eq_ok.2 ⟨_, h6, ?_⟩⟩⟩
    refine except_bind_eq_ok.2
      ⟨_, h7, except_bind_eq_ok.2 ⟨_, hentries, except_bind_eq_ok.2 ⟨_, h8, ?_⟩⟩⟩
    simp only [Array.append_assoc]
    rfl

theorem laid_of_build {strings : List CText} {merged : Merged} {fingerprint : Fingerprint}
    {now : UInt64} {image : Bytes} (h : build strings merged fingerprint now = .ok image) :
    ∃ header entries, Laid strings merged fingerprint image header entries := by
  obtain ⟨header, entries, _, -, hlaid, -⟩ := built_of_build h
  exact ⟨header, entries, hlaid⟩

namespace Laid

variable {strings : List CText} {merged : Merged} {fingerprint : Fingerprint} {image : Bytes}
  {header : Header} {entries : List Entry}

theorem length_entries (h : Laid strings merged fingerprint image header entries) :
    entries.length = merged.entries.size := by
  rw [← h.entries.length_eq, Array.length_toList]

/-- Where the parts of a container start, from the sizes of the parts before. -/
theorem starts (h : Laid strings merged fingerprint image header entries) :
    (Layout.ofParts strings merged).strings = Header.encodedSize ∧
      (Layout.ofParts strings merged).preload
        = Header.encodedSize + alignUp (Layout.stringBytes strings).size ∧
      (Layout.ofParts strings merged).search
        = (Layout.ofParts strings merged).preload + alignUp (preloadBytes merged).size ∧
      (Layout.ofParts strings merged).entries
        = (Layout.ofParts strings merged).search + alignUp (searchBytes merged).size ∧
      (Layout.ofParts strings merged).payload
        = (Layout.ofParts strings merged).entries + alignUp (entryBytes entries).size := by
  have hpreload : (preloadBytes merged).size = 4 * merged.preload.size := by
    rw [preloadBytes, size_join_words, Array.length_toList]
  have hsearch : (searchBytes merged).size = SearchKey.size * merged.search.length :=
    size_join_map SearchKey.size_encode _
  have hentries : (entryBytes entries).size = Entry.encodedSize * merged.entries.size := by
    rw [entryBytes, size_join_map Entry.size_encode, h.length_entries]
  have hstart : Header.encodedSize % dataAlignment = 0 := rfl
  rw [hpreload, hsearch, hentries]
  refine ⟨rfl, ?_, ?_, ?_, ?_⟩
  · exact alignUp_add hstart
  · exact alignUp_add (alignUp_mod _)
  · exact alignUp_add (alignUp_mod _)
  · exact alignUp_add (alignUp_mod _)

/-- Where each part of a container stands. -/
structure Parts (strings : List CText) (merged : Merged) (image : Bytes) (header : Header)
    (entries : List Entry) : Prop where
  headerAt : PartAt image 0 header.encode
  stringsAt : PartAt image (Layout.ofParts strings merged).strings (Layout.stringBytes strings)
  preloadAt : PartAt image (Layout.ofParts strings merged).preload (preloadBytes merged)
  searchAt : PartAt image (Layout.ofParts strings merged).search (searchBytes merged)
  entriesAt : PartAt image (Layout.ofParts strings merged).entries (entryBytes entries)
  payloadAt : PartAt image (Layout.ofParts strings merged).payload merged.payload
  size : image.size = (Layout.ofParts strings merged).finish

theorem parts (h : Laid strings merged fingerprint image header entries) :
    Parts strings merged image header entries := by
  obtain ⟨h1, h2, h3, h4, h5⟩ := h.starts
  have hall : PartAt image 0 (header.encode ++ (padded (Layout.stringBytes strings) ++
      (padded (preloadBytes merged) ++ (padded (searchBytes merged) ++
        (padded (entryBytes entries) ++ merged.payload))))) := h.bytes ▸ partAt_self image
  obtain ⟨hheader, hall⟩ := partAt_append.1 hall
  obtain ⟨hstrings, hall⟩ := partAt_append.1 hall
  obtain ⟨hpreload, hall⟩ := partAt_append.1 hall
  obtain ⟨hsearch, hall⟩ := partAt_append.1 hall
  obtain ⟨hentries, hpayload⟩ := partAt_append.1 hall
  simp only [Header.size_encode, size_padded, Nat.zero_add]
    at hstrings hpreload hsearch hentries hpayload
  rw [← h2] at hpreload hsearch hentries hpayload
  rw [← h3] at hsearch hentries hpayload
  rw [← h4] at hentries hpayload
  rw [← h5] at hpayload
  refine ⟨hheader, (partAt_append.1 hstrings).1, (partAt_append.1 hpreload).1,
    (partAt_append.1 hsearch).1, (partAt_append.1 hentries).1, hpayload, ?_⟩
  rw [h.bytes]
  simp only [Array.size_append, Header.size_encode, size_padded]
  rw [show (Layout.ofParts strings merged).finish = (Layout.ofParts strings merged).payload
    + merged.payload.size from rfl]
  omega

/-! ## 2. The header -/

/-- One more entry of a kind is one more in all; one of no kind is not counted. -/
theorem total_record {counts : KindCounts} (kind : EntryKind) (hlt : counts.total + 1 < wordSpace) :
    (counts.record kind).total = counts.total + (if kind = .none then 0 else 1) := by
  have hone : ∀ n : UInt32, n.toNat ≤ counts.total → (n + 1).toNat = n.toNat + 1 := by
    intro n hle
    rw [UInt32.toNat_add]
    exact Nat.mod_eq_of_lt (by simp only [wordSpace] at hlt; simp only [UInt32.toNat_one]; omega)
  have h1 := hone counts.adapters
  have h2 := hone counts.stubs
  have h3 := hone counts.blobs
  have h4 := hone counts.code
  simp only [KindCounts.total] at h1 h2 h3 h4
  cases kind <;> simp only [KindCounts.record, KindCounts.total, reduceCtorEq, if_true,
    if_false] <;> omega

/-- The number of entries that are of some kind. -/
def countKinds (entries : List Entry) : Nat := entries.countP fun entry => entry.kind != .none

theorem countKinds_eq_length {entries : List Entry} :
    countKinds entries = entries.length ↔ ∀ entry ∈ entries, entry.kind ≠ .none := by
  simp only [countKinds, List.countP_eq_length, bne_iff_ne]

/-- **The numbers by kind add up to the number of entries that are of some kind.** -/
theorem total_counts {entries : List Entry} {counts : KindCounts}
    (hlt : counts.total + entries.length < wordSpace) :
    (entries.foldl (fun counts entry => counts.record entry.kind) counts).total
      = counts.total + countKinds entries := by
  induction entries generalizing counts with
  | nil => rfl
  | cons entry entries ih =>
    rw [List.length_cons] at hlt
    have hroom : counts.total + 1 < wordSpace := by omega
    have hrecord := total_record entry.kind hroom
    have hle : (counts.record entry.kind).total ≤ counts.total + 1 := by
      rw [hrecord]
      split <;> omega
    rw [List.foldl_cons, ih (by omega), hrecord]
    by_cases hkind : entry.kind = .none
    · simp only [countKinds, List.countP_cons, hkind, if_true, bne_self_eq_false,
        Bool.false_eq_true, if_false, Nat.add_zero]
    · simp only [countKinds, List.countP_cons, hkind, if_false, bne_iff_ne, ne_eq,
        not_false_eq_true, if_true]
      omega

/-- A table behind the header and inside the container is in order. -/
theorem tableFault?_eq_none {size itemSize start : Nat} {table : TableName} {offset count : UInt32}
    (hoffset : offset.toNat = start) (hle : Header.encodedSize ≤ start)
    (hfinish : start + itemSize * count.toNat ≤ size) :
    Header.tableFault? size table offset count itemSize = none := by
  subst hoffset
  rw [Nat.mul_comm] at hfinish
  exact Header.tableFault?_eq_none.2 ⟨hle, hfinish⟩

/-- **The tables of a container that was built are inside**, so that all that can be wrong with it
    is that some of its entries are of no kind. -/
theorem boundsFault?_eq (h : Laid strings merged fingerprint image header entries) :
    header.boundsFault? =
      if countKinds merged.entries.toList ≠ merged.entries.size then
        some (.kindCounts (countKinds merged.entries.toList) merged.entries.size)
      else none := by
  obtain ⟨h1, h2, h3, h4, h5⟩ := h.starts
  have hparts := h.parts
  have hsize : header.size.toNat = image.size := by rw [h.size, hparts.size]
  have hentries := hparts.entriesAt.le
  have hpreload := hparts.preloadAt.le
  rw [entryBytes, size_join_map Entry.size_encode, h.length_entries, ← h.entryCount] at hentries
  rw [preloadBytes, size_join_words, Array.length_toList, ← h.preloadCount] at hpreload
  -- The keys may be fewer or more than the entries; the entries behind them take more room than as
  -- many keys.
  have hsearch : (Layout.ofParts strings merged).search +
      SearchKey.size * header.entries.count.toNat ≤ image.size := by
    simp only [Entry.encodedSize, SearchKey.size] at hentries ⊢
    omega
  have htotal : header.counts.total = countKinds merged.entries.toList := by
    have hzero : KindCounts.zero.total = 0 := rfl
    have hlt : KindCounts.zero.total + merged.entries.toList.length < wordSpace := by
      rw [hzero, Nat.zero_add, Array.length_toList, ← h.entryCount]
      exact header.entries.count.toNat_lt
    rw [h.counts, ← Array.foldl_toList, total_counts hlt, hzero, Nat.zero_add]
  have hentryTable : Header.tableFault? image.size .entry header.entries.offset header.entries.count
      Entry.encodedSize = none := tableFault?_eq_none h.entriesAt (by omega) hentries
  have hsearchTable : Header.tableFault? image.size .search header.searchOffset header.entries.count
      SearchKey.size = none := tableFault?_eq_none h.searchAt (by omega) hsearch
  have hpreloadTable : Header.tableFault? image.size .preload header.preload.offset
      header.preload.count 4 = none := tableFault?_eq_none h.preloadAt (by omega) hpreload
  have hstringTable : ¬image.size < header.strings.offset.toNat := by
    rw [h.stringsAt]
    have hstrings := hparts.stringsAt.le
    omega
  simp only [Header.boundsFault?, hsize, hentryTable, hsearchTable, hpreloadTable,
    hstringTable, htotal, h.entryCount, if_false, Option.orElse_eq_orElse, Option.orElse_none]

/-- What was built is a container exactly when the places in its header are in order. -/
theorem ofBytes_eq (h : Laid strings merged fingerprint image header entries) :
    ofBytes image = header.checked.map (⟨image, ·⟩) := by
  have hsize : header.size.toNat = image.size := by rw [h.size, h.parts.size]
  have hdecode : Header.decode image = header.checked :=
    Header.decode_eq h.version hsize h.parts.headerAt
  rw [ofBytes, hdecode]
  cases header.checked <;> rfl

/-- **What was built is accepted, if all its entries are of some kind.** -/
theorem ofBytes_ok (h : Laid strings merged fingerprint image header entries)
    (hkinds : ∀ entry ∈ merged.entries.toList, entry.kind ≠ .none) :
    ofBytes image = .ok ⟨image, header⟩ := by
  have hcount : countKinds merged.entries.toList = merged.entries.size := by
    rw [countKinds_eq_length.2 hkinds, Array.length_toList]
  rw [h.ofBytes_eq, Header.checked, h.boundsFault?_eq, hcount, if_neg (not_not.2 rfl)]
  rfl

/-- **What was built with an entry of no kind is refused**: its numbers by kind do not add up to its
    entries. -/
theorem ofBytes_error (h : Laid strings merged fingerprint image header entries) {entry : Entry}
    (hmem : entry ∈ merged.entries.toList) (hkind : entry.kind = .none) :
    countKinds merged.entries.toList < merged.entries.size ∧
      ofBytes image =
        .error (.layout (.kindCounts (countKinds merged.entries.toList) merged.entries.size)) := by
  have hle : countKinds merged.entries.toList ≤ merged.entries.toList.length :=
    List.countP_le_length
  have hne : countKinds merged.entries.toList ≠ merged.entries.size := by
    rw [← Array.length_toList]
    exact fun hcount => countKinds_eq_length.1 hcount entry hmem hkind
  refine ⟨by rw [Array.length_toList] at hle; omega, ?_⟩
  rw [h.ofBytes_eq, Header.checked, h.boundsFault?_eq, if_pos hne]
  rfl

/-- If what was built is accepted at all, it is with the header that was built. -/
theorem eq_of_ofBytes {container : Container}
    (h : Laid strings merged fingerprint image header entries)
    (hcontainer : ofBytes image = .ok container) :
    container = ⟨image, header⟩ := by
  rw [h.ofBytes_eq, Header.checked] at hcontainer
  split at hcontainer
  · cases hcontainer
  · cases hcontainer
    rfl

/-! ## 3. Tables -/

/-- Reading a table from where it stands. -/
theorem runAt_table {α γ : Type} {part : Bytes} {start : Nat} {offset count : UInt32}
    {item : Reading α} {encode : γ → Bytes} {f : γ → α} {things : List γ}
    (hpart : PartAt image start part) (hoffset : offset.toNat = start)
    (hcount : count.toNat = things.length) (hbytes : part = join (things.map encode))
    (hitem : ∀ thing ∈ things, Spells (encode thing) item (f thing)) :
    runAt image offset.toNat (readMany item count.toNat) = .ok (things.map f) := by
  subst hbytes
  rw [hoffset, hcount]
  have hle := hpart.le
  exact runAt_of_reads (by omega) (spells_readMany hitem hpart)

theorem stringBytes_eq (strings : List CText) :
    Layout.stringBytes strings = join (strings.map CText.terminated) := by
  have hfrom : ∀ bytes : Bytes, strings.foldl (fun bytes text => bytes ++ text.terminated) bytes
      = bytes ++ join (strings.map CText.terminated) := by
    induction strings with
    | nil => simp
    | cons text strings ih =>
      intro bytes
      rw [List.foldl_cons, ih, List.map_cons, join_cons, Array.append_assoc]
  rw [Layout.stringBytes, hfrom, Array.empty_append]

/-- The string table as bytes, without asking whether they are text. -/
theorem rawStrings_ok (h : Laid strings merged fingerprint image header entries) :
    rawStrings ⟨image, header⟩ = .ok strings := by
  have := runAt_table (f := id) h.parts.stringsAt h.stringsAt h.stringCount
    (stringBytes_eq strings) fun text _ => spells_readTerminated text
  rwa [List.map_id] at this

/-- A text is read as it was written. -/
theorem spells_readString {text : CText} (h : text.IsText) :
    Spells text.terminated readString text := by
  obtain ⟨decoded, hdecoded⟩ := h
  refine (spells_readTerminated text).bind_nothing ?_
  simp only [decodeText, hdecoded]
  exact spells_pure text

/-- **The strings are read back, if all of them are text.** -/
theorem strings_ok (h : Laid strings merged fingerprint image header entries)
    (htext : ∀ text ∈ strings, text.IsText) : Container.strings ⟨image, header⟩ = .ok strings := by
  have := runAt_table (f := id) h.parts.stringsAt h.stringsAt h.stringCount
    (stringBytes_eq strings) fun text hmem => spells_readString (htext text hmem)
  rwa [List.map_id] at this

theorem searchKeys_ok (h : Laid strings merged fingerprint image header entries)
    (hcount : merged.search.length = merged.entries.size) :
    searchKeys ⟨image, header⟩ = .ok merged.search := by
  have := runAt_table (f := id) h.parts.searchAt h.searchAt (h.entryCount.trans hcount.symm) rfl
    fun key _ => key.spells_decode
  rwa [List.map_id] at this

theorem preloadIndices_ok (h : Laid strings merged fingerprint image header entries) :
    preloadIndices ⟨image, header⟩ = .ok merged.preload.toList := by
  have hcount : header.preload.count.toNat = merged.preload.toList.length := by
    rw [h.preloadCount, Array.length_toList]
  have := runAt_table (f := id) h.parts.preloadAt h.preloadAt hcount rfl
    fun index _ => spells_readU32 index
  rwa [List.map_id] at this

/-- An entry whose bytes are in the container is read as it is kept. -/
theorem spells_readEntry {container : Container} {entry : Entry} {bytes : Bytes}
    (hbytes : container.payload entry.persisted = .ok bytes) :
    Spells entry.encode container.readEntry entry.persisted := by
  refine entry.spells_decode.bind_nothing ?_
  simp only [hbytes]
  exact spells_pure _

/-! ## 4. Entries and what they carry -/

/-- **The entries of a container that was built carry the items that survive**, in their order. -/
theorem carries {items : List Item} (h : Laid strings merged fingerprint image header entries)
    (hholds : merged.Holds items) :
    List.Forall₂ (Item.CarriedBy ⟨image, header⟩) (items.filter (·.entry.survives)) entries := by
  refine (forall₂_comp hholds.entries h.entries).imp fun item entry hboth => ?_
  obtain ⟨kept, ⟨offset, bytes, hlt, rfl, hbytes, hpart⟩, hoffset, rfl⟩ := hboth
  refine ⟨rfl, bytes, hbytes, ?_⟩
  have hkept : (Merged.keptEntry item.entry offset).offset.toNat = offset :=
    toNat_ofNat_of_lt_wordSpace hlt
  have hsize : bytes.size = item.entry.size.toNat := size_of_slice? hbytes
  rw [hkept] at hoffset
  have hplace := readAt_of_partAt (h.parts.payloadAt.trans hpart)
  rw [hsize] at hplace
  show image.readAt (UInt32.ofNat _).toNat item.entry.size.toNat = _
  rw [hkept, toNat_ofNat_of_lt_wordSpace hoffset, hplace]

theorem entries_ok {items : List Item} (h : Laid strings merged fingerprint image header entries)
    (hholds : merged.Holds items) : Container.entries ⟨image, header⟩ = .ok entries := by
  have hcarried := h.carries hholds
  have hkept : ∀ entry ∈ entries, entry.persisted = entry := by
    intro entry hmem
    obtain ⟨item, -, hitem⟩ := exists_of_forall₂ hcarried hmem
    exact hitem.kept.persisted
  have hitem : ∀ entry ∈ entries,
      Spells entry.encode (readEntry ⟨image, header⟩) entry.persisted := by
    intro entry hmem
    obtain ⟨item, -, -, bytes, -, hbytes⟩ := exists_of_forall₂ hcarried hmem
    exact spells_readEntry ((congrArg _ (hkept entry hmem)).trans hbytes)
  have :=
    runAt_table h.parts.entriesAt h.entriesAt (h.entryCount.trans h.length_entries.symm) rfl hitem
  rwa [List.map_congr_left hkept, List.map_id'] at this

/-- A key that points at an entry of a merge points at what became of it. -/
theorem pointsAt (h : Laid strings merged fingerprint image header entries) {key : SearchKey}
    (hkey : Merged.PointsAt merged.entries key) : Merged.PointsAt entries.toArray key := by
  obtain ⟨place, entry, hindex, hentry, hid⟩ := hkey
  rw [← Array.getElem?_toList] at hentry
  obtain ⟨placed, hplaced, -, hsame⟩ := exists_getElem?_of_forall₂ h.entries hentry
  refine ⟨place, placed, hindex, by rw [List.getElem?_toArray, hplaced], ?_⟩
  rw [hsame]
  exact hid

/-- **The index of a container that was built is its entries with the tables of the merge.** -/
theorem loadIndex_ok {items : List Item} {keys : List SearchKey}
    (h : Laid strings merged fingerprint image header entries) (hholds : merged.Holds items)
    (hsorted : merged.search = SearchTable.sort keys) :
    Container.loadIndex ⟨image, header⟩ =
      .ok ⟨entries.toArray, merged.search.toArray, merged.preload, #[]⟩ := by
  have hlt : entries.toArray.size < wordSpace := by
    rw [List.size_toArray, h.length_entries, ← h.entryCount]
    exact header.entries.count.toNat_lt
  have hcount : merged.search.toArray.size = entries.toArray.size := by
    rw [List.size_toArray, List.size_toArray, hholds.count, h.length_entries]
  have hvalid : SearchTable.validate merged.search.toArray entries.toArray = .ok () :=
    SearchTable.validate_ok hcount hlt (hsorted ▸ SearchTable.pairwise_sort keys)
      fun key hmem => h.pointsAt (hholds.search key hmem)
  have hpreload : merged.preload.find? (fun index => entries.toArray.size ≤ index.toNat) =
      none := by
    refine Array.find?_eq_none.2 fun index hmem => ?_
    obtain ⟨place, hplace, rfl⟩ := hholds.preload index hmem
    rw [← h.length_entries, ← List.size_toArray] at hplace
    rw [toNat_ofNat_of_lt_wordSpace (Nat.lt_trans hplace hlt)]
    simpa using hplace
  simp only [loadIndex, h.entries_ok hholds, h.searchKeys_ok hholds.count, h.preloadIndices_ok]
  show EntryIndex.ofLoaded entries.toArray merged.search.toArray merged.preload.toList.toArray = _
  rw [Array.toArray_toList]
  simp only [EntryIndex.ofLoaded, hvalid, hpreload]
  rfl

end Laid

end Container

end CodeVault
