import CodeVault.Proofs.Container.Header

/-!
# Which tables an accepted header bounds

* **Bytes are accepted with a header exactly if its words stand in them, it tells their size, and
  its places are in order** (`Header.decode_eq_ok_iff`); what is in the two reserved words does not
  matter;
* `Header.recounted` puts another number of strings into a header. It is accepted like the one
  before (`Header.decode_recounted`);
* **the tables of entries, keys and preloaded places end inside accepted bytes, the strings only
  start there; more strings than there are bytes for them are refused when they are read**
  (`Header.tables_of_decode`).
-/

namespace CodeVault

open Bytes Cursor

namespace Header

variable {header : Header} {data : Bytes}

/-! ## 1. Acceptance -/

/-- The words of a header stand at the start of bytes whose size it tells. -/
structure StandsIn (header : Header) (data : Bytes) : Prop where
  room : encodedSize ≤ data.size
  version : header.version = formatVersion
  size : header.size.toNat = data.size
  front : PartAt data 0 header.frontBytes
  back : PartAt data 16 header.backBytes

/-- **Bytes are accepted with a header exactly if it stands in them and its places are in
    order.** -/
theorem decode_eq_ok_iff : decode data = .ok header ↔ header.StandsIn data ∧ header.InOrder := by
  constructor
  · intro h
    unfold decode at h
    split at h
    · cases h
    · rename_i hshort
      obtain ⟨_, ⟨hversion, hsize, horder⟩, hfront, hback⟩ :=
        (yields_read data.size).of_runAt h (Nat.zero_le _)
      exact ⟨⟨Nat.not_lt.1 hshort, hversion, hsize, hfront, hback⟩, horder⟩
  · rintro ⟨⟨hroom, hversion, hsize, hfront, hback⟩, horder⟩
    have hword : 12 + 4 ≤ data.size := Nat.le_trans (by decide) hroom
    obtain ⟨reserved, hreserved⟩ := exists_word hword
    have hwords : PartAt data 0 (header.frontBytes ++ (ofU32 reserved ++ header.backBytes)) := by
      simp only [partAt_append, size_frontBytes, size_ofU32]
      exact ⟨hfront, hreserved, hback⟩
    obtain ⟨_, hrun⟩ := leads_read_reserved hversion reserved hwords (Nat.zero_le _)
    rw [hsize, boundsFault?_eq_none.2 horder] at hrun
    rw [decode, if_neg (Nat.not_lt.2 hroom), runAt_eq (Nat.zero_le _), hrun]
    rfl

/-! ## 2. Another number of strings -/

/-- Where the number of strings is in a header. -/
def stringCountOffset : Nat := 24

/-- Bytes with another number of strings in their header. -/
def recounted (data : Bytes) (count : UInt32) : Bytes :=
  data.overwrite stringCountOffset (ofU32 count)

theorem stringCount_room (h : encodedSize ≤ data.size) (count : UInt32) :
    stringCountOffset + (ofU32 count).size ≤ data.size := by
  rw [size_ofU32]
  exact Nat.le_trans (by decide) h

theorem size_recounted (h : encodedSize ≤ data.size) (count : UInt32) :
    (recounted data count).size = data.size :=
  size_overwrite (stringCount_room h count)

/-- **Only the four bytes of the number change.** -/
theorem getElem?_recounted (h : encodedSize ≤ data.size) (count : UInt32) {i : Nat}
    (hi : i < stringCountOffset ∨ stringCountOffset + 4 ≤ i) :
    (recounted data count)[i]? = data[i]? :=
  getElem?_overwrite_outside (stringCount_room h count) (by rwa [size_ofU32])

/-- The header that stands in bytes stands in them with another number of strings. -/
theorem StandsIn.recounted (h : header.StandsIn data) (count : UInt32) :
    { header with strings := ⟨count, header.strings.offset⟩ }.StandsIn (recounted data count) := by
  have hsize := size_recounted h.room count
  refine ⟨hsize.symm ▸ h.room, h.version, h.size.trans hsize.symm, ?_, ?_⟩
  · exact ((h.front.take (by rw [size_frontBytes]; decide)).append_right _).append_right _
  · obtain ⟨before, rest, rfl, hbefore⟩ := h.back
    -- What is behind the number of strings in the words of the header.
    obtain ⟨after, hafter⟩ : ∃ after, ∀ count,
      { header with strings := ⟨count, header.strings.offset⟩ }.backBytes =
        ofU64 header.createdAt ++ (ofU32 count ++ after) :=
      ⟨_, fun count => by simp only [backBytes, regionBytes, Array.append_assoc]; rfl⟩
    have hplace : (before ++ ofU64 header.createdAt).size = stringCountOffset := by
      rw [Array.size_append, size_ofU64, hbefore]
      rfl
    have hpatched : (before ++ ofU64 header.createdAt ++ ofU32 header.strings.count ++
        (after ++ rest)).overwrite
        (before ++ ofU64 header.createdAt).size (ofU32 count) =
        before ++ ofU64 header.createdAt ++ ofU32 count ++ (after ++ rest) :=
      overwrite_between (by rw [size_ofU32, size_ofU32])
    have hown : header.backBytes =
        ofU64 header.createdAt ++ (ofU32 header.strings.count ++ after) :=
      hafter header.strings.count
    refine ⟨before, rest, ?_, hbefore⟩
    rw [hafter count, hown, Header.recounted, ← hplace]
    simpa only [Array.append_assoc] using hpatched

/-- **A header is accepted with any number of strings**: the places in order do not depend on it. -/
theorem decode_recounted (h : decode data = .ok header) (count : UInt32) :
    decode (recounted data count) =
      .ok { header with strings := ⟨count, header.strings.offset⟩ } := by
  obtain ⟨hstands, horder⟩ := decode_eq_ok_iff.1 h
  exact decode_eq_ok_iff.2
    ⟨hstands.recounted count,
      ⟨horder.entries, horder.search, horder.preload, horder.strings, horder.counts⟩⟩

end Header

/-! ## 3. The tables -/

/-- A string of the table takes a byte at least. -/
theorem Container.yields_readString {data : Bytes} {start : Nat} :
    Yields readString data start fun _ finish => start + 1 ≤ finish :=
  yields_readTerminated.bind fun _ _ hmiddle => (yields_decodeText _).bind fun _ _ ⟨_, h⟩ =>
    yields_pure (h ▸ hmiddle)

namespace Header

variable {header : Header} {data : Bytes}

/-- Strings that were read had a byte each. -/
theorem strings_within {texts : List CText} (hstart : header.strings.offset.toNat ≤ data.size)
    (h : Container.strings ⟨data, header⟩ = .ok texts) :
    header.strings.offset.toNat + header.strings.count.toNat ≤ data.size := by
  obtain ⟨finish, hfinish, hcount⟩ :=
    (yields_readMany (fun _ => Container.yields_readString) _).inside.of_runAt h hstart
  rw [Nat.mul_one] at hcount
  exact Nat.le_trans hcount hfinish

/-- **The tables of an accepted header.** Those of entries, keys and preloaded places end inside the
    bytes and are behind the header. The strings start in the bytes, or at their end; the header is
    accepted with any other number of them, and more than there are bytes for are refused when they
    are read. -/
theorem tables_of_decode (h : decode data = .ok header) :
    (Within data.size header.entries.offset header.entries.count Entry.encodedSize ∧
      Within data.size header.searchOffset header.entries.count SearchKey.size ∧
      Within data.size header.preload.offset header.preload.count 4 ∧
      header.strings.offset.toNat ≤ data.size) ∧
    (∀ count, (recounted data count).size = data.size ∧
      (∀ i, i < stringCountOffset ∨ stringCountOffset + 4 ≤ i →
        (recounted data count)[i]? = data[i]?) ∧
      decode (recounted data count) =
        .ok { header with strings := ⟨count, header.strings.offset⟩ }) ∧
    (data.size < header.strings.offset.toNat + header.strings.count.toNat →
      ∃ cause, Container.strings ⟨data, header⟩ = .error (.corrupt cause)) := by
  obtain ⟨hstands, horder⟩ := decode_eq_ok_iff.1 h
  have hsize := hstands.size
  refine ⟨hsize ▸ ⟨horder.entries, horder.search, horder.preload, horder.strings⟩, fun count => ?_,
    fun hmany => ?_⟩
  · exact ⟨size_recounted hstands.room count, fun _ => getElem?_recounted hstands.room count,
      decode_recounted h count⟩
  · cases hread : Container.strings ⟨data, header⟩ with
    | ok texts => exact absurd (strings_within (hsize ▸ horder.strings) hread) (Nat.not_le.2 hmany)
    | error e =>
      obtain ⟨cause, rfl⟩ := Container.corrupt_of_strings hread
      exact ⟨cause, rfl⟩

/-- The container of one stub without bytes tells of more strings than any file has bytes. -/
theorem tables_of_decode_oneStub :
    decode (recounted (oneStub.encode ++ zeros 64) 4294967295) =
        .ok { oneStub with strings := ⟨4294967295, 96⟩ } ∧
      ∃ cause, Container.strings ⟨recounted (oneStub.encode ++ zeros 64) 4294967295,
        { oneStub with strings := ⟨4294967295, 96⟩ }⟩ = .error (.corrupt cause) := by
  have hinside : oneStub.InOrder := ⟨by decide, by decide, by decide, by decide, by decide⟩
  have hread : decode (oneStub.encode ++ zeros 64) = .ok oneStub :=
    (decode_encode_iff rfl (by decide)).2 hinside
  obtain ⟨hsize, -, haccepted⟩ := (tables_of_decode hread).2.1 4294967295
  refine ⟨haccepted, (tables_of_decode haccepted).2.2 ?_⟩
  rw [hsize, Array.size_append, size_encode, size_zeros]
  decide

end Header

end CodeVault
