import CodeVault.Container.Layout
import CodeVault.Proofs.Cursor.Reads

/-!
# Records of a container are read back

Keys, entries, fingerprints and headers are words one behind the other; each is read back from its
words.

* an entry comes back without what belongs to one run (`Entry.spells_decode`);
* **bytes that start with a header are accepted exactly when the header passes its checks**
  (`Header.decode_eq`).
-/

namespace CodeVault

open Bytes Cursor

/-! ## 1. Words -/

namespace Bytes

/-- Pieces as lists put together are the pieces put together. -/
theorem toArray_flatMap {α : Type} (encode : α → Bytes) (things : List α) :
    (things.flatMap fun thing => (encode thing).toList).toArray = join (things.map encode) := by
  induction things with
  | nil => rfl
  | cons thing things ih => simp [← ih]

/-- The bytes of words one behind the other. -/
theorem toArray_words (words : List UInt32) :
    (words.flatMap fun w => wordBytes 4 w.toNat).toArray = join (words.map ofU32) :=
  toArray_flatMap ofU32 words

theorem size_join_words (words : List UInt32) : (join (words.map ofU32)).size = 4 * words.length :=
  size_join_map size_ofU32 words

end Bytes

@[simp] theorem SearchKey.size_encode (key : SearchKey) : key.encode.size = SearchKey.size := by
  simp only [encode, Array.size_append, size_ofU32, SearchKey.size]

theorem SearchKey.spells_decode (key : SearchKey) : Spells key.encode decode key :=
  (spells_readU32 key.id).bind (spells_readU32 key.index).bind_pure

/-! ## 2. Entries -/

namespace Entry

theorem encode_eq (entry : Entry) : entry.encode = join (entry.words.map ofU32) :=
  toArray_words entry.words

@[simp] theorem size_encode (entry : Entry) : entry.encode.size = encodedSize := by
  rw [encode_eq, size_join_words]
  rfl

theorem ofNumber?_word (kind : EntryKind) :
    EntryKind.ofNumber? (UInt32.ofNat kind.number).toNat = some kind := by
  cases kind <;> rfl

theorem toNat_level (level : UInt8) : (UInt32.ofNat level.toNat).toNat = level.toNat :=
  toNat_ofNat_of_lt_wordSpace (Nat.lt_trans level.toNat_lt (by decide))

/-- The flags that are kept come back from their word. -/
theorem ofNat_persistent (flags : EntryFlags) :
    (EntryFlags.ofNat (UInt32.ofNat flags.persistent.toNat).toNat).persistent =
      flags.persistent := by
  have hlt : flags.persistent.toNat < wordSpace := by
    have h1 := flags.notEntrant.toNat_lt
    have h2 := flags.forPreload.toNat_lt
    have h3 := flags.initBarriers.toNat_lt
    have h4 := flags.ignoreDecompile.toNat_lt
    simp only [EntryFlags.toNat, EntryFlags.persistent, Bool.toNat_false, wordSpace]
    omega
  rw [toNat_ofNat_of_lt_wordSpace hlt, EntryFlags.ofNat_toNat]
  rfl

/-- The words of an entry before its flags. -/
def frontWords (entry : Entry) : List UInt32 :=
  [UInt32.ofNat entry.kind.number, entry.id, entry.offset, entry.size, entry.nameOffset,
    entry.nameSize, entry.codeOffset, entry.codeSize, UInt32.ofNat entry.level.toNat,
    entry.compileId, entry.decompile, entry.inlinedBytecodes]

/-- **The words before the flags are read back with whatever flags are behind them**; of these some
    are kept, and what is in the last word does not matter. -/
theorem spells_frontWords (entry : Entry) (flags reserved : UInt32) :
    Spells (join ((entry.frontWords ++ [flags, reserved]).map ofU32)) decode
      { entry with flags := (EntryFlags.ofNat flags.toNat).persistent, next := none } := by
  intro data pos h
  have hend : pos + encodedSize ≤ data.size := by
    have := h.le
    rwa [size_join_words] at this
  rw [size_join_words]
  simp only [frontWords, List.cons_append, List.nil_append, List.map_cons, List.map_nil,
    join_cons, join_nil, partAt_append, size_ofU32] at h
  obtain ⟨h1, h2, h3, h4, h5, h6, h7, h8, h9, h10, h11, h12, h13, -⟩ := h
  refine Reads.bind_get fun _ => (spells_readU32 _ h1).bind ?_
  simp only [ofNumber?_word]
  refine (spells_readU32 _ h2).bind ((spells_readU32 _ h3).bind ((spells_readU32 _ h4).bind ?_))
  refine (spells_readU32 _ h5).bind ((spells_readU32 _ h6).bind ((spells_readU32 _ h7).bind ?_))
  refine (spells_readU32 _ h8).bind ((spells_readU32 _ h9).bind ?_)
  have hlevel : ¬256 ≤ (UInt32.ofNat entry.level.toNat).toNat := by
    rw [toNat_level]
    exact Nat.not_le.2 entry.level.toNat_lt
  simp only [hlevel, if_false]
  refine (spells_readU32 _ h10).bind ((spells_readU32 _ h11).bind ((spells_readU32 _ h12).bind ?_))
  refine (spells_readU32 _ h13).bind ((reads_seek hend).bind ?_)
  simp only [toNat_level, UInt8.ofNat_toNat]
  exact reads_pure _ _

/-- **An entry is read back without what belongs to one run.** -/
theorem spells_decode (entry : Entry) : Spells entry.encode decode entry.persisted := by
  have hwords := spells_frontWords entry (UInt32.ofNat entry.flags.persistent.toNat) 0
  rw [ofNat_persistent] at hwords
  rw [encode_eq]
  exact hwords

end Entry

/-! ## 3. Fingerprints and headers -/

theorem Collector.ofCode?_word (collector : Collector) :
    ofCode? (UInt32.ofNat collector.code).toNat = some collector := by
  cases collector <;> rfl

theorem Fingerprint.spells_read (fingerprint : Fingerprint) :
    Spells (join (fingerprint.words.map ofU32)) read fingerprint := by
  simp only [words, List.map_cons, List.map_nil, join_cons, join_nil, Array.append_empty]
  refine (spells_readU32 _).bind ?_
  simp only [Collector.ofCode?_word]
  refine (spells_readU32 _).bind ((spells_readU32 _).bind ((spells_readU32 _).bind ?_))
  exact (spells_readU32 _).bind (spells_readU32 _).bind_pure

namespace Header

/-- The bytes of a region: its count, then its place. -/
def regionBytes (region : Region) : Bytes := ofU32 region.count ++ ofU32 region.offset

theorem spells_readRegion (region : Region) : Spells (regionBytes region) readRegion region :=
  (spells_readU32 _).bind (spells_readU32 _).bind_pure

/-- The bytes of a header up to the word at its end that is not used. -/
def usedBytes (header : Header) : Bytes :=
  ofU32 magic ++ (ofU32 header.version ++ (ofU32 header.size ++ (ofU32 0 ++
    (ofU64 header.createdAt ++ (regionBytes header.strings ++ (regionBytes header.entries ++
    (ofU32 header.searchOffset ++ (regionBytes header.preload ++ (ofU32 header.counts.adapters ++
    (ofU32 header.counts.stubs ++ (ofU32 header.counts.blobs ++ (ofU32 header.counts.code ++
    join (header.fingerprint.words.map ofU32)))))))))))))

theorem encode_eq (header : Header) : header.encode = header.usedBytes ++ ofU32 0 := by
  rw [encode, toArray_words, words]
  simp only [usedBytes, regionBytes, List.map_append, join_append, List.map_cons, List.map_nil,
    join_cons, join_nil, Array.append_empty, Array.append_assoc]

@[simp] theorem size_encode (header : Header) : header.encode.size = encodedSize := by
  simp only [encode_eq, usedBytes, regionBytes, Array.size_append, size_ofU32, size_ofU64,
    size_join_words, Fingerprint.words, List.length_cons, List.length_nil, encodedSize]

/-- What a header comes to when its places are checked. -/
def checked (header : Header) : Except CacheError Header :=
  match header.boundsFault? with
  | some fault => .error (.layout fault)
  | none => .ok header

/-- The bytes of a header before its first reserved word. -/
def frontBytes (header : Header) : Bytes :=
  ofU32 magic ++ (ofU32 header.version ++ ofU32 header.size)

/-- The bytes of a header between its reserved words. -/
def backBytes (header : Header) : Bytes :=
  ofU64 header.createdAt ++ (regionBytes header.strings ++ (regionBytes header.entries ++
    (ofU32 header.searchOffset ++ (regionBytes header.preload ++ (ofU32 header.counts.adapters ++
    (ofU32 header.counts.stubs ++ (ofU32 header.counts.blobs ++ (ofU32 header.counts.code ++
    join (header.fingerprint.words.map ofU32)))))))))

theorem usedBytes_eq_parts (header : Header) :
    header.usedBytes = header.frontBytes ++ (ofU32 0 ++ header.backBytes) := by
  simp only [usedBytes, frontBytes, backBytes, Array.append_assoc]

/-- The words of a header are read back whatever the first reserved word is, and then its places are
    checked. -/
theorem leads_read_reserved {header : Header} (hversion : header.version = formatVersion)
    (reserved : UInt32) :
    Leads (header.frontBytes ++ (ofU32 reserved ++ header.backBytes)) (read header.size.toNat)
      (match header.boundsFault? with
        | some fault => throw (.layout fault)
        | none => pure header) := by
  obtain ⟨version, size, createdAt, strings, entries, searchOffset, preload,
    ⟨adapters, stubs, blobs, code⟩, fingerprint⟩ := header
  obtain rfl : version = formatVersion := hversion
  simp only [frontBytes, Array.append_assoc]
  refine (spells_readU32 _).bind_leads ?_
  simp only [ne_eq, not_true, if_false]
  refine (spells_readU32 _).bind_leads ?_
  simp only [not_true, if_false]
  refine (spells_readU32 _).bind_leads ?_
  simp only [not_true, if_false]
  refine (spells_readU32 _).bind_leads ((spells_readU64 _).bind_leads ?_)
  refine (spells_readRegion _).bind_leads ((spells_readRegion _).bind_leads ?_)
  refine (spells_readU32 _).bind_leads ((spells_readRegion _).bind_leads ?_)
  refine (spells_readU32 _).bind_leads ((spells_readU32 _).bind_leads ?_)
  refine (spells_readU32 _).bind_leads ((spells_readU32 _).bind_leads ?_)
  exact fingerprint.spells_read.leads

/-- **The words of a header are read back, and then its places are checked.** -/
theorem leads_read {header : Header} (hversion : header.version = formatVersion) :
    Leads header.usedBytes (read header.size.toNat) (match header.boundsFault? with
      | some fault => throw (.layout fault)
      | none => pure header) :=
  header.usedBytes_eq_parts ▸ leads_read_reserved hversion 0

/-- **The header at the start of the bytes that it is the header of is read, if its places are in
    order.** -/
theorem decode_eq {header : Header} {data : Bytes} (hversion : header.version = formatVersion)
    (hsize : header.size.toNat = data.size) (hpart : PartAt data 0 header.encode) :
    decode data = header.checked := by
  have hle := hpart.le
  rw [size_encode, Nat.zero_add] at hle
  rw [encode_eq] at hpart
  rw [decode, if_neg (Nat.not_lt.2 hle), ← hsize]
  obtain ⟨h', hrun⟩ := leads_read hversion (partAt_append.1 hpart).1 (Nat.zero_le _)
  rw [runAt_eq (Nat.zero_le _), hrun, checked]
  cases header.boundsFault? <;> rfl

end Header

end CodeVault
