import CodeVault.Proofs.Container.Codec
import CodeVault.Proofs.Cursor.Yields

/-!
# Entries and their bytes

* `Bytes.wordAt data pos` is the word of four bytes at a place;
* of the word of flags the bits of `EntryFlags.keptBits` are written and read
  (`EntryFlags.toNat_persistent`);
* **bytes are read as an entry exactly if the words of its kind and its level are such, and are then
  written again but for the flags that are not kept and the last word**
  (`Entry.decode_encode_inverse`).
-/

namespace CodeVault

open Bytes Cursor

variable {data : Bytes} {start : Nat}

/-! ## 1. Words at places -/

/-- The word of four bytes at a place. -/
def Bytes.wordAt (data : Bytes) (pos : Nat) : UInt32 :=
  UInt32.ofNat (toNat (data.extract pos (pos + 4)))

theorem Bytes.wordAt_of_partAt {pos : Nat} {word : UInt32} (h : PartAt data pos (ofU32 word)) :
    data.wordAt pos = word := by
  have hbytes := h.extract
  rw [size_ofU32] at hbytes
  rw [wordAt, hbytes, ofNat_toNat_ofU32]

theorem Bytes.partAt_wordAt {pos : Nat} (h : pos + 4 ≤ data.size) :
    PartAt data pos (ofU32 (data.wordAt pos)) := by
  obtain ⟨word, hword⟩ := exists_word h
  rwa [wordAt_of_partAt hword]

/-! ## 2. Flags -/

namespace EntryFlags

/-- The bits of the flags that describe the artifact: not entrant, for preload, with barriers, made
    offline. -/
def keptBits : UInt32 := 0b111001

/-- The kept flags of a number are those of its lowest six bits. -/
theorem toNat_persistent_ofNat (bits : Nat) :
    (ofNat bits).persistent.toNat = bits &&& keptBits.toNat := by
  have hlow : ∀ low < 64, (ofNat low).persistent.toNat = low &&& keptBits.toNat := by decide +kernel
  have hkept : bits &&& keptBits.toNat = bits % 64 &&& keptBits.toNat := by
    have hmod : (bits &&& keptBits.toNat) % 2 ^ 6 = bits % 2 ^ 6 &&& keptBits.toNat % 2 ^ 6 :=
      Nat.and_mod_two_pow
    have hlt : bits &&& keptBits.toNat < 2 ^ 6 := Nat.and_lt_two_pow bits (by decide)
    rwa [Nat.mod_eq_of_lt hlt] at hmod
  have hsame : (ofNat bits).persistent = (ofNat (bits % 64)).persistent := by
    have h0 : bits % 64 % 2 = bits % 2 := by omega
    have h3 : bits % 64 / 8 % 2 = bits / 8 % 2 := by omega
    have h4 : bits % 64 / 16 % 2 = bits / 16 % 2 := by omega
    have h5 : bits % 64 / 32 % 2 = bits / 32 % 2 := by omega
    simp only [ofNat, persistent, h0, h3, h4, h5]
  rw [hsame, hkept, hlow _ (Nat.mod_lt _ (by decide))]

theorem toNat_persistent (flags : EntryFlags) :
    flags.persistent.toNat = flags.toNat &&& keptBits.toNat := by
  rw [← toNat_persistent_ofNat, ofNat_toNat]

/-- **The flags that are kept are those of the kept bits.** -/
theorem ofNat_land_keptBits (flags : EntryFlags) :
    ofNat (flags.toNat &&& keptBits.toNat) = flags.persistent := by
  rw [← toNat_persistent, ofNat_toNat]

end EntryFlags

/-! ## 3. Entries -/

/-- Up to six there is a kind of each number. -/
theorem EntryKind.exists_number {n : Nat} (h : n ≤ 6) : ∃ kind : EntryKind, kind.number = n := by
  have hall : ∀ n ≤ 6, ∃ kind ∈ all, kind.number = n := by decide
  obtain ⟨kind, -, hnumber⟩ := hall n h
  exact ⟨kind, hnumber⟩

namespace Entry

/-- The word of the flags that are written. -/
theorem word_persistent (flags : UInt32) :
    UInt32.ofNat (EntryFlags.ofNat flags.toNat).persistent.toNat =
      flags &&& EntryFlags.keptBits := by
  rw [EntryFlags.toNat_persistent_ofNat, ← UInt32.toNat_and, UInt32.ofNat_toNat]

/-- **What was read as an entry had the words of a kind and of a level.** -/
theorem yields_decode : Yields decode data start fun _ _ =>
    (data.wordAt start).toNat ≤ 6 ∧ (data.wordAt (start + 32)).toNat ≤ 255 := by
  refine Yields.bind_get fun _ => yields_readU32_bind fun rawKind hraw => ?_
  rw [wordAt_of_partAt hraw]
  split
  · rename_i kind hkind
    have hnumber : rawKind.toNat ≤ 6 := EntryKind.number_of_ofNumber? hkind ▸ kind.number_le
    refine yields_readU32_bind fun _ _ => yields_readU32_bind fun _ _ => yields_readU32_bind
      fun _ _ => ?_
    refine yields_readU32_bind fun _ _ => yields_readU32_bind fun _ _ => yields_readU32_bind
      fun _ _ => ?_
    refine yields_readU32_bind fun _ _ => yields_readU32_bind fun level hlevel => ?_
    refine yields_unless (u := ()) fun hsmall => ?_
    have hfacts : rawKind.toNat ≤ 6 ∧ (data.wordAt (start + 32)).toNat ≤ 255 := by
      rw [wordAt_of_partAt hlevel]
      exact ⟨hnumber, by omega⟩
    refine yields_readU32_bind fun _ _ => yields_readU32_bind fun _ _ => yields_readU32_bind
      fun _ _ => ?_
    exact yields_readU32_bind fun _ _ => (yields_seek _).bind fun _ _ _ => yields_pure hfacts
  · exact yields_throw _

/-- Where the words of a kind and of a level are, the words of an entry stand, with some flags
    behind them. -/
theorem exists_frontWords (hroom : start + encodedSize ≤ data.size)
    (hkind : (data.wordAt start).toNat ≤ 6) (hlevel : (data.wordAt (start + 32)).toNat ≤ 255) :
    ∃ (entry : Entry) (flags reserved : UInt32),
      PartAt data start (join ((entry.frontWords ++ [flags, reserved]).map ofU32)) := by
  have hword : ∀ pos, pos + 4 ≤ start + 56 → PartAt data pos (ofU32 (data.wordAt pos)) :=
    fun pos hpos => partAt_wordAt (Nat.le_trans hpos hroom)
  obtain ⟨kind, hnumber⟩ := EntryKind.exists_number hkind
  have hrawKind : UInt32.ofNat kind.number = data.wordAt start := by
    rw [hnumber, UInt32.ofNat_toNat]
  have hrawLevel : UInt32.ofNat (UInt8.ofNat (data.wordAt (start + 32)).toNat).toNat =
      data.wordAt (start + 32) := by
    rw [UInt8.toNat_ofNat_of_lt' (Nat.lt_succ_of_le hlevel), UInt32.ofNat_toNat]
  refine ⟨⟨kind, data.wordAt (start + 4), data.wordAt (start + 8), data.wordAt (start + 12),
    data.wordAt (start + 16), data.wordAt (start + 20), data.wordAt (start + 24),
    data.wordAt (start + 28), UInt8.ofNat (data.wordAt (start + 32)).toNat,
    data.wordAt (start + 36), data.wordAt (start + 40), data.wordAt (start + 44), .none, none⟩,
    data.wordAt (start + 48), data.wordAt (start + 52), ?_⟩
  simp only [frontWords, hrawKind, hrawLevel, List.cons_append, List.nil_append, List.map_cons,
    List.map_nil, join_cons, join_nil, Array.append_empty, partAt_append, size_ofU32, Nat.add_assoc]
  refine ⟨?_, ?_, ?_, ?_, ?_, ?_, ?_, ?_, ?_, ?_, ?_, ?_, ?_, ?_⟩ <;> exact hword _ (by omega)

/-- **What is written again of the words of an entry with any flags behind them.** -/
theorem encode_of_frontWords (entry : Entry) (flags : UInt32) :
    encode { entry with flags := (EntryFlags.ofNat flags.toNat).persistent, next := none } =
      join (entry.frontWords.map ofU32) ++ ofU32 (flags &&& EntryFlags.keptBits) ++ ofU32 0 := by
  have hwords :
      words { entry with flags := (EntryFlags.ofNat flags.toNat).persistent, next := none } =
        entry.frontWords ++ [flags &&& EntryFlags.keptBits, 0] := by
    rw [← word_persistent]
    rfl
  rw [encode_eq, hwords, List.map_append, join_append, Array.append_assoc]
  simp

/-- **Reading and writing entries are inverse to each other**, but for what belongs to one run. An
    entry that is written is read back, wherever it stands, with the kept flags alone and no link,
    up to where it ends. Where there are enough bytes an entry is read exactly if the first word is
    the number of a kind and the ninth a level; the entry is then written as the bytes that were
    read, but for the flags that are not kept and the last word. -/
theorem decode_encode_inverse :
    (∀ (entry : Entry) (before behind : Bytes),
      Reads decode (before ++ entry.encode ++ behind) before.size
      { entry with flags := .ofNat (entry.flags.toNat &&& EntryFlags.keptBits.toNat), next := none }
      (before.size + 56)) ∧
    ∀ cursor : Cursor, cursor.pos + 56 ≤ cursor.data.size →
      ((∃ entry after, decode cursor = .ok entry after) ↔
        (cursor.data.wordAt cursor.pos).toNat ≤ 6 ∧
        (cursor.data.wordAt (cursor.pos + 32)).toNat ≤ 255) ∧
      ∀ entry after, decode cursor = .ok entry after →
        after.data = cursor.data ∧ after.pos = cursor.pos + 56 ∧
        entry.encode = cursor.data.extract cursor.pos (cursor.pos + 48) ++
          ofU32 (cursor.data.wordAt (cursor.pos + 48) &&& EntryFlags.keptBits) ++ ofU32 0 := by
  refine ⟨fun entry before behind => ?_, fun ⟨data, start, hstart⟩ hroom => ?_⟩
  · rw [EntryFlags.ofNat_land_keptBits]
    exact reads_of_partAt ⟨before, behind, rfl, rfl⟩ (by rw [size_encode, encodedSize])
      entry.spells_decode
  -- Where the words are right there is one outcome, so that what is known of it is known of each.
  have houtcome : (data.wordAt start).toNat ≤ 6 ∧ (data.wordAt (start + 32)).toNat ≤ 255 →
      ∃ entry, ∃ hend : start + 56 ≤ data.size,
        decode ⟨data, start, hstart⟩ = .ok entry ⟨data, start + 56, hend⟩ ∧
        entry.encode = data.extract start (start + 48) ++
          ofU32 (data.wordAt (start + 48) &&& EntryFlags.keptBits) ++ ofU32 0 := by
    rintro ⟨hkind, hlevel⟩
    obtain ⟨front, flags, reserved, hwords⟩ := exists_frontWords hroom hkind hlevel
    have hsize : start + (join ((front.frontWords ++ [flags, reserved]).map ofU32)).size =
        start + 56 := by
      rw [size_join_words]
      rfl
    obtain ⟨hend, hread⟩ :=
      reads_of_partAt hwords hsize (front.spells_frontWords flags reserved) hstart
    rw [List.map_append, join_append] at hwords
    obtain ⟨hfront, hback⟩ := partAt_append.1 hwords
    have hfrontSize : (join (front.frontWords.map ofU32)).size = 48 := size_join_words _
    have hextract := hfront.extract
    rw [hfrontSize] at hextract hback
    have hflags : data.wordAt (start + 48) = flags := wordAt_of_partAt (partAt_append.1 hback).1
    refine ⟨_, hend, hread, ?_⟩
    rw [encode_of_frontWords, hextract, hflags]
  refine ⟨⟨?_, ?_⟩, ?_⟩
  · rintro ⟨entry, after, hread⟩
    exact (yields_decode hread).2
  · intro hwords
    obtain ⟨entry, hend, hread, -⟩ := houtcome hwords
    exact ⟨entry, _, hread⟩
  · intro entry after hread
    obtain ⟨other, hend, hother, hencode⟩ := houtcome (yields_decode hread).2
    cases hread.symm.trans hother
    exact ⟨rfl, rfl, hencode⟩

/-- An adapter whose words have bits behind the flags, and something in the last word. -/
def foreignAdapter : Bytes :=
  join ([1, 42, 128, 64, 0, 5, 8, 48, 4, 7, 0, 0, 0xffffffff, 9].map ofU32)

theorem decode_encode_inverse_foreignAdapter :
    ∃ (entry : Entry) (after : Cursor), decode (.ofBytes foreignAdapter) = .ok entry after ∧
      entry.encode = foreignAdapter.extract 0 48 ++ ofU32 0b111001 ++ ofU32 0 := by
  have hroom : 0 + 56 ≤ foreignAdapter.size := by decide +kernel
  obtain ⟨haccepted, hback⟩ := decode_encode_inverse.2 (.ofBytes foreignAdapter) hroom
  obtain ⟨entry, after, hread⟩ := haccepted.2 ⟨by decide +kernel, by decide +kernel⟩
  obtain ⟨-, -, hencode⟩ := hback entry after hread
  have hflags : foreignAdapter.wordAt 48 &&& EntryFlags.keptBits = 0b111001 := by decide +kernel
  refine ⟨entry, after, hread, ?_⟩
  rw [← hflags]
  exact hencode

end Entry

end CodeVault
