import CodeVault.Container.Basic
import CodeVault.Proofs.Cursor.Refusals

/-!
# What containers are refused for

* **`Header.Refusal` lists what bytes are refused for by their header** (`refusal_of_decode`); of
  these only an unknown collector is an error of the format, and it is found exactly behind a mark,
  a version and a size that are right (`Header.Recognized`, `decode_of_unknownCollector`);
* tables are refused for what their bytes hold, or because they do not fit together
  (`refusal_of_loadIndex`, `corrupt_of_strings`);
* `Container.Inconsistent`: bytes that a process of a fingerprint takes for a container of its own,
  but cannot make sense of.
-/

namespace CodeVault

open Bytes Cursor

/-! ## 1. Headers -/

namespace Header

/-- Bytes that start like a container of this version and of their own size. -/
structure Recognized (data : Bytes) : Prop where
  room : encodedSize ≤ data.size
  mark : PartAt data 0 (ofU32 magic)
  version : PartAt data 4 (ofU32 formatVersion)
  size : ∃ size, PartAt data 8 (ofU32 size) ∧ size.toNat = data.size

/-- Where the fingerprint is in a header. -/
def fingerprintOffset : Nat := 68

/-- What bytes are refused for by their header. -/
inductive Refusal (data : Bytes) : CacheError → Prop
  | short (h : data.size < encodedSize) : Refusal data (.sizeMismatch encodedSize data.size)
  | mark : Refusal data .badMagic
  | version (found : UInt32) (h : found ≠ formatVersion) :
    Refusal data (.versionMismatch found formatVersion)
  | size (declared : UInt32) (h : declared.toNat ≠ data.size) :
    Refusal data (.sizeMismatch declared.toNat data.size)
  | collector (raw : UInt32) (recognized : Recognized data)
    (stored : PartAt data fingerprintOffset (ofU32 raw))
    (unknown : Collector.ofCode? raw.toNat = none) :
    Refusal data (.corrupt (.unknownCollector raw))
  | layout (fault : LayoutFault) (recognized : Recognized data) : Refusal data (.layout fault)

end Header

/-- A fingerprint is refused for its collector only. -/
theorem Fingerprint.ends_read {data : Bytes} {start : Nat} {causes : CacheError → Prop}
    (hroom : start + size ≤ data.size)
    (hcollector : ∀ raw, PartAt data start (ofU32 raw) → Collector.ofCode? raw.toNat = none →
      causes (.corrupt (.unknownCollector raw))) :
    Ends read data start (start + size) causes := by
  simp only [size] at hroom ⊢
  refine ends_readU32_bind (by omega) fun raw hraw => ?_
  cases hcode : Collector.ofCode? raw.toNat with
  | none => exact ends_throw (hcollector raw hraw hcode)
  | some collector =>
    refine (ends_readU32 (by omega)).bind fun oopShift => (ends_readU32 (by omega)).bind
      fun klassShift => ?_
    refine (ends_readU32 (by omega)).bind fun alignment => (ends_readU32 (by omega)).bind
      fun width => ?_
    exact (ends_readU32 (by omega)).bind fun flags => ends_pure _

namespace Header

theorem ends_readRegion {data : Bytes} {start : Nat} {causes : CacheError → Prop}
    (hroom : start + 8 ≤ data.size) : Ends readRegion data start (start + 8) causes :=
  (ends_readU32 (by omega)).bind fun _ => (ends_readU32 (by omega)).bind fun _ => ends_pure _

/-- **What reading a header of bytes comes to**: the end of the words that are used, or a
    refusal. -/
theorem ends_read {data : Bytes} (hroom : encodedSize ≤ data.size) :
    Ends (read data.size) data 0 92 (Refusal data) := by
  have hroom' : 96 ≤ data.size := hroom
  -- The first three words make the bytes recognized; all that is refused behind them is refused as
  -- such.
  refine ends_readU32_bind (by omega) fun mark hmark => ?_
  refine ends_unless (u := ()) (fun _ => .mark) fun hmagic => ?_
  obtain rfl : mark = magic := Decidable.not_not.1 hmagic
  refine ends_readU32_bind (by omega) fun version hversion => ?_
  refine ends_unless (u := ()) (.version version) fun hsame => ?_
  obtain rfl : version = formatVersion := Decidable.not_not.1 hsame
  refine ends_readU32_bind (by omega) fun size hsize => ?_
  refine ends_unless (u := ()) (.size size) fun hactual => ?_
  have hrecognized : Recognized data :=
    ⟨hroom, hmark, hversion, size, hsize, Decidable.not_not.1 hactual⟩
  refine (ends_readU32 (by omega)).bind fun reserved => (ends_readU64 (by omega)).bind
    fun createdAt => ?_
  refine (ends_readRegion (by omega)).bind fun strings => (ends_readRegion (by omega)).bind
    fun entries => ?_
  refine (ends_readU32 (by omega)).bind fun search => (ends_readRegion (by omega)).bind
    fun preload => ?_
  refine (ends_readU32 (by omega)).bind fun adapters => (ends_readU32 (by omega)).bind
    fun stubs => ?_
  refine (ends_readU32 (by omega)).bind fun blobs => (ends_readU32 (by omega)).bind fun code => ?_
  have hfingerprint : Ends Fingerprint.read data fingerprintOffset 92 (Refusal data) :=
    Fingerprint.ends_read (by simp only [fingerprintOffset, Fingerprint.size]; omega)
      fun raw hraw hunknown => .collector raw hrecognized hraw hunknown
  refine hfingerprint.bind fun fingerprint => ?_
  extract_lets header
  split
  · rename_i fault _
    exact ends_throw (.layout fault hrecognized)
  · exact ends_pure header

/-- **What bytes are refused for by their header.** -/
theorem refusal_of_decode {data : Bytes} {cause : CacheError} (h : decode data = .error cause) :
    Refusal data cause := by
  unfold decode at h
  split at h
  · rename_i hshort
    cases h
    exact .short hshort
  · rename_i hroom
    exact (ends_read (Nat.not_lt.1 hroom)).cause_of_runAt (Nat.zero_le _) h

/-- **Bytes that start like a container are refused for a collector that is not known**, whatever
    the rest of their header is. -/
theorem decode_of_unknownCollector {data : Bytes} {raw : UInt32} (h : Recognized data)
    (hstored : PartAt data fingerprintOffset (ofU32 raw))
    (hunknown : Collector.ofCode? raw.toNat = none) :
    decode data = .error (.corrupt (.unknownCollector raw)) := by
  have hroom : 96 ≤ data.size := h.room
  obtain ⟨size, hsize, hactual⟩ := h.size
  have hstops : Stops (read data.size) data 0 (.corrupt (.unknownCollector raw)) := by
    refine Reads.bind_stops (reads_readU32 h.mark) ?_
    simp only [ne_eq, not_true, if_false]
    refine Reads.bind_stops (reads_readU32 h.version) ?_
    simp only [not_true, if_false]
    refine Reads.bind_stops (reads_readU32 hsize) ?_
    simp only [hactual, not_true, if_false]
    refine (ends_readU32 (by omega)).bind_stops fun _ => (ends_readU64 (by omega)).bind_stops
      fun _ => ?_
    refine (ends_readRegion (by omega)).bind_stops fun _ => (ends_readRegion (by omega)).bind_stops
      fun _ => ?_
    refine (ends_readU32 (by omega)).bind_stops fun _ => (ends_readRegion (by omega)).bind_stops
      fun _ => ?_
    refine (ends_readU32 (by omega)).bind_stops fun _ => (ends_readU32 (by omega)).bind_stops
      fun _ => ?_
    refine (ends_readU32 (by omega)).bind_stops fun _ => (ends_readU32 (by omega)).bind_stops
      fun _ => ?_
    have hfingerprint : Stops Fingerprint.read data fingerprintOffset
        (.corrupt (.unknownCollector raw)) := by
      refine Reads.bind_stops (reads_readU32 hstored) ?_
      simp only [hunknown]
      exact stops_throw _
    exact hfingerprint.bind
  rw [decode, if_neg (Nat.not_lt.2 h.room)]
  exact hstops.runAt (Nat.zero_le _)

end Header

/-! ## 2. Tables -/

theorem SearchKey.refuses_decode : Refuses CacheError.IsCorrupt decode :=
  refuses_readU32.bind fun _ => refuses_readU32.bind fun _ => refuses_pure _

theorem Entry.refuses_decode : Refuses CacheError.IsCorrupt decode := by
  unfold decode
  refine refuses_get.bind fun cursor => refuses_readU32.bind fun rawKind => ?_
  split
  · refine refuses_readU32.bind fun id => refuses_readU32.bind fun offset => ?_
    refine refuses_readU32.bind fun size => refuses_readU32.bind fun nameOffset => ?_
    refine refuses_readU32.bind fun nameSize => refuses_readU32.bind fun codeOffset => ?_
    refine refuses_readU32.bind fun codeSize => refuses_readU32.bind fun level => ?_
    refine refuses_when (u := ()) (refuses_corrupt _) fun _ => ?_
    refine refuses_readU32.bind fun compileId => refuses_readU32.bind fun decompile => ?_
    refine refuses_readU32.bind fun inlined => refuses_readU32.bind fun flags => ?_
    exact (refuses_seek _).bind fun _ => refuses_pure _
  · exact refuses_corrupt _

namespace Container

theorem corrupt_of_payload {container : Container} {entry : Entry} {cause : CacheError}
    (h : container.payload entry = .error cause) : cause.IsCorrupt := by
  unfold payload readAt at h
  split at h <;> cases h
  exact ⟨_, rfl⟩

theorem refuses_readEntry (container : Container) :
    Refuses CacheError.IsCorrupt container.readEntry := by
  refine Entry.refuses_decode.bind fun entry => ?_
  cases hbytes : container.payload entry with
  | ok bytes => exact refuses_pure _
  | error cause => exact refuses_throw (corrupt_of_payload hbytes)

theorem refuses_readString : Refuses CacheError.IsCorrupt readString :=
  refuses_readTerminated.bind fun _ => (refuses_decodeText _).bind fun _ => refuses_pure _

/-- **Strings are refused for what their bytes hold.** -/
theorem corrupt_of_strings {container : Container} {cause : CacheError}
    (h : container.strings = .error cause) : cause.IsCorrupt :=
  corrupt_of_runAt (refuses_readMany refuses_readString _) h

theorem layout_of_validate {keys : Array SearchKey} {entries : Array Entry} {cause : CacheError}
    (h : SearchTable.validate keys entries = .error cause) : ∃ fault, cause = .layout fault := by
  unfold SearchTable.validate at h
  split at h
  · cases h
    exact ⟨_, rfl⟩
  · split at h
    · cases h
      exact ⟨_, rfl⟩
    · split at h <;> cases h
      exact ⟨_, rfl⟩

theorem layout_of_ofLoaded {entries : Array Entry} {keys : Array SearchKey} {preload : Array UInt32}
    {cause : CacheError} (h : EntryIndex.ofLoaded entries keys preload = .error cause) :
    ∃ fault, cause = .layout fault := by
  rcases except_bind_eq_error.1 h with hvalidate | ⟨_, -, h⟩
  · exact layout_of_validate hvalidate
  · split at h <;> cases h
    exact ⟨_, rfl⟩

/-- **An index is refused for what the bytes of its tables hold, or because they do not fit
    together.** -/
theorem refusal_of_loadIndex {container : Container} {cause : CacheError}
    (h : container.loadIndex = .error cause) :
    cause.IsCorrupt ∨ ∃ fault, cause = .layout fault := by
  rcases except_bind_eq_error.1 h with hentries | ⟨entries, -, h⟩
  · exact .inl (corrupt_of_runAt (refuses_readMany container.refuses_readEntry _) hentries)
  rcases except_bind_eq_error.1 h with hkeys | ⟨keys, -, h⟩
  · exact .inl (corrupt_of_runAt (refuses_readMany SearchKey.refuses_decode _) hkeys)
  rcases except_bind_eq_error.1 h with hpreload | ⟨preload, -, h⟩
  · exact .inl (corrupt_of_runAt (refuses_readMany refuses_readU32 _) hpreload)
  · exact .inr (layout_of_ofLoaded h)

/-- Bytes that a process of a fingerprint takes for a container of its own, but cannot make sense
    of: the collector is none that it knows, or there is something in the tables that is not what it
    should be, or, if the tables are in order, in the strings. -/
inductive Inconsistent (fingerprint : Fingerprint) (image : Bytes) : Corruption → Prop
  | collector (raw : UInt32) (recognized : Header.Recognized image)
    (stored : PartAt image Header.fingerprintOffset (ofU32 raw))
    (unknown : Collector.ofCode? raw.toNat = none) :
    Inconsistent fingerprint image (.unknownCollector raw)
  | contents (container : Container) (cause : Corruption) (accepted : ofBytes image = .ok container)
    (verified : fingerprint.verify container.header.fingerprint = .ok ())
    (corrupt : container.loadIndex = .error (.corrupt cause) ∨
      (∃ index, container.loadIndex = .ok index) ∧ container.strings = .error (.corrupt cause)) :
    Inconsistent fingerprint image cause

end Container

end CodeVault
