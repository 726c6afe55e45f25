import CodeVault.Proofs.Arena.Ample
import CodeVault.Proofs.Container.Codec
import CodeVault.Proofs.Container.Refusals
import CodeVault.Proofs.Cursor.Yields

/-!
# Headers there and back

* a header is written into an arena of its size as its bytes (`Header.write_ofCapacity`);
* **the bytes of a header, filled up with zeros to the size it tells, are read as the header exactly
  if its tables are in order** (`Header.decode_encode_iff`);
* **bytes that a header was read from start with the bytes of the header**, but for the two reserved
  words (`Header.yields_read`); so its tables of words can be read, and neither less nor more than
  all of the bytes is accepted (`Header.HeadOf`).
-/

namespace CodeVault

open Bytes Cursor Arena

/-! ## 1. Writing -/

theorem Fingerprint.puts_write (fingerprint : Fingerprint) :
    Puts fingerprint.write (join (fingerprint.words.map ofU32)) := by
  simp only [words, List.map_cons, List.map_nil, join_cons, join_nil, Array.append_empty]
  refine (Arena.puts_write _).bind fun _ => (Arena.puts_write _).bind fun _ =>
    (Arena.puts_write _).bind fun _ => ?_
  exact (Arena.puts_write _).bind fun _ => (Arena.puts_write _).bind fun _ =>
    (Arena.puts_write _).bind_pure

namespace Header

theorem puts_writeRegion (region : Region) : Puts (writeRegion region) (regionBytes region) :=
  (puts_write _).bind fun _ => (puts_write _).bind_pure

theorem puts_writeWords (header : Header) : Puts header.writeWords header.usedBytes := by
  refine (puts_write _).bind fun _ => (puts_write _).bind fun _ => (puts_write _).bind fun _ => ?_
  refine (puts_write _).bind fun _ => (puts_write _).bind fun _ => ?_
  refine (puts_writeRegion _).bind fun _ => (puts_writeRegion _).bind fun _ => (puts_write _).bind
    fun _ => ?_
  refine (puts_writeRegion _).bind fun _ => (puts_write _).bind fun _ => (puts_write _).bind
    fun _ => ?_
  exact (puts_write _).bind fun _ => (puts_write _).bind fun _ => header.fingerprint.puts_write

theorem size_usedBytes (header : Header) : header.usedBytes.size = encodedSize - 4 := by
  have hall := header.size_encode
  rw [encode_eq, Array.size_append, size_ofU32] at hall
  omega

/-- **A header fills an arena of its size with its bytes.** -/
theorem write_ofCapacity (header : Header) :
    header.write (ofCapacity encodedSize) = .ok () (filled encodedSize header.encode) := by
  have hsize := header.size_usedBytes
  have hroom : (#[] : Bytes).size + header.usedBytes.size ≤ encodedSize := by
    rw [hsize]
    decide
  obtain ⟨_, hwords⟩ := puts_writeWords header hroom
  rw [Array.empty_append] at hwords
  have hlift : (liftM header.writeWords : Encoding Unit) (ofCapacity encodedSize) =
      .ok () (filled encodedSize header.usedBytes) := lift_eq_ok.2 hwords
  have hhere : (get : Encoding Arena) (filled encodedSize header.usedBytes) =
      .ok (filled encodedSize header.usedBytes) (filled encodedSize header.usedBytes) := rfl
  have hrest : encodedSize - (filled encodedSize header.usedBytes).position = 4 := by
    rw [position_filled, hsize]
    rfl
  have hreserve : reserve 4 (filled encodedSize header.usedBytes) =
      .ok header.usedBytes.size (filled encodedSize header.encode) := by
    rw [encode_eq, show ofU32 0 = zeros 4 from rfl]
    exact reserve_filled (by rw [hsize]; decide) (by rw [hsize]; decide)
  rw [write, bind_of_ok hlift, bind_of_ok hhere, hrest, bind_of_ok hreserve]
  rfl

/-! ## 2. Places in order -/

/-- A table of `count` items is behind the header and inside the bytes. -/
def Within (size : Nat) (offset count : UInt32) (itemSize : Nat) : Prop :=
  encodedSize ≤ offset.toNat ∧ offset.toNat + count.toNat * itemSize ≤ size

instance (size : Nat) (offset count : UInt32) (itemSize : Nat) :
    Decidable (Within size offset count itemSize) :=
  inferInstanceAs (Decidable (_ ∧ _))

/-- The tables of a header are inside the bytes that it tells the size of, its strings start there,
    and its numbers by kind add up to its entries. -/
structure InOrder (header : Header) : Prop where
  entries : Within header.size.toNat header.entries.offset header.entries.count Entry.encodedSize
  search : Within header.size.toNat header.searchOffset header.entries.count SearchKey.size
  preload : Within header.size.toNat header.preload.offset header.preload.count 4
  strings : header.strings.offset.toNat ≤ header.size.toNat
  counts : header.counts.total = header.entries.count.toNat

theorem tableFault?_eq_none {size itemSize : Nat} {table : TableName} {offset count : UInt32} :
    tableFault? size table offset count itemSize = none ↔ Within size offset count itemSize := by
  simp only [tableFault?, Within, ite_eq_right_iff, reduceCtorEq, imp_false, Bool.or_eq_true,
    decide_eq_true_eq, not_or, Nat.not_lt]

/-- **Nothing is wrong with the places of a header exactly if they are in order.** -/
theorem boundsFault?_eq_none {header : Header} : header.boundsFault? = none ↔ header.InOrder := by
  have hstrings : (if header.size.toNat < header.strings.offset.toNat then
      some (LayoutFault.stringsOutside header.strings.offset.toNat header.size.toNat) else none) =
        none ↔
      header.strings.offset.toNat ≤ header.size.toNat := by
    simp only [ite_eq_right_iff, reduceCtorEq, imp_false, Nat.not_lt]
  have hcounts : (if header.counts.total ≠ header.entries.count.toNat then
      some (LayoutFault.kindCounts header.counts.total header.entries.count.toNat) else none) =
        none ↔
      header.counts.total = header.entries.count.toNat := by
    simp only [ite_eq_right_iff, reduceCtorEq, imp_false, Decidable.not_not]
  simp only [boundsFault?, Option.orElse_eq_orElse, Option.orElse_eq_or, Option.or_eq_none_iff,
    tableFault?_eq_none, hstrings, hcounts]
  exact ⟨fun ⟨h1, h2, h3, h4, h5⟩ => ⟨h1, h2, h3, h4, h5⟩,
    fun h => ⟨h.entries, h.search, h.preload, h.strings, h.counts⟩⟩

/-- **The bytes of a header, filled up to the size that it tells, are read as it exactly if its
    places are in order.** -/
theorem decode_encode_iff {header : Header} (hversion : header.version = formatVersion)
    (hsize : encodedSize ≤ header.size.toNat) :
    decode (header.encode ++ zeros (header.size.toNat - encodedSize)) = .ok header ↔
      header.InOrder := by
  have hfilled : header.size.toNat =
      (header.encode ++ zeros (header.size.toNat - encodedSize)).size := by
    rw [Array.size_append, size_encode, size_zeros]
    omega
  rw [decode_eq hversion hfilled ((partAt_self _).append_right _), checked, ← boundsFault?_eq_none]
  cases header.boundsFault? <;> simp

/-! ## 3. What a header was read from -/

theorem encode_eq_parts (header : Header) :
    header.encode = header.frontBytes ++ (ofU32 0 ++ (header.backBytes ++ ofU32 0)) := by
  simp only [encode_eq, usedBytes_eq_parts, Array.append_assoc]

end Header

theorem Fingerprint.yields_read {data : Bytes} {start : Nat} :
    Yields read data start fun fingerprint _ =>
      PartAt data start (join (fingerprint.words.map ofU32)) := by
  refine yields_readU32_bind fun raw h1 => ?_
  split
  · rename_i collector hcollector
    refine yields_readU32_bind fun _ h2 => yields_readU32_bind fun _ h3 => yields_readU32_bind
      fun _ h4 => ?_
    refine yields_readU32_bind fun _ h5 => yields_readU32_bind fun _ h6 => yields_pure ?_
    simp only [words, List.map_cons, List.map_nil, join_cons, join_nil, Array.append_empty,
      partAt_append, size_ofU32, Collector.code_of_ofCode? hcollector, UInt32.ofNat_toNat]
    exact ⟨h1, h2, h3, h4, h5, h6⟩
  · exact yields_throw _

namespace Header

theorem yields_readRegion {data : Bytes} {start : Nat} :
    Yields readRegion data start fun region finish =>
      PartAt data start (regionBytes region) ∧ finish = start + 8 := by
  refine yields_readU32_bind fun count h1 => yields_readU32_bind fun offset h2 =>
    yields_pure ⟨?_, rfl⟩
  rw [regionBytes, partAt_append, size_ofU32]
  exact ⟨h1, h2⟩

/-- **A header that was read stands where it was read**, but for its reserved words, and its places
    are in order. -/
theorem yields_read {data : Bytes} (actual : Nat) :
    Yields (read actual) data 0 fun header _ =>
      (header.version = formatVersion ∧ header.size.toNat = actual ∧ header.InOrder) ∧
        PartAt data 0 header.frontBytes ∧ PartAt data 16 header.backBytes := by
  refine yields_readU32_bind fun mark hmark => yields_unless (u := ()) fun hmagic => ?_
  obtain rfl : mark = magic := Decidable.not_not.1 hmagic
  refine yields_readU32_bind fun version hversion => yields_unless (u := ()) fun hsame => ?_
  obtain rfl : version = formatVersion := Decidable.not_not.1 hsame
  refine yields_readU32_bind fun size hsize => yields_unless (u := ()) fun hactual => ?_
  refine yields_readU32_bind fun reserved _ => ?_
  refine yields_readU64.bind fun createdAt _ ⟨hcreated, h⟩ => h ▸ ?_
  refine yields_readRegion.bind fun strings _ ⟨hstrings, h⟩ => h ▸ ?_
  refine yields_readRegion.bind fun entries _ ⟨hentries, h⟩ => h ▸ ?_
  refine yields_readU32_bind fun search hsearch => ?_
  refine yields_readRegion.bind fun preload _ ⟨hpreload, h⟩ => h ▸ ?_
  refine yields_readU32_bind fun adapters hadapters => yields_readU32_bind fun stubs hstubs => ?_
  refine yields_readU32_bind fun blobs hblobs => yields_readU32_bind fun code hcode => ?_
  refine Fingerprint.yields_read.bind fun fingerprint _ hfingerprint => ?_
  extract_lets header
  split
  · exact yields_throw _
  · rename_i hbounds
    refine yields_pure ⟨⟨rfl, Decidable.not_not.1 hactual, boundsFault?_eq_none.1 hbounds⟩, ?_, ?_⟩
    · simp only [frontBytes, partAt_append, size_ofU32]
      exact ⟨hmark, hversion, hsize⟩
    · have hregion : ∀ region, (regionBytes region).size = 8 := fun region => by
        simp only [regionBytes, Array.size_append, size_ofU32]
      simp only [backBytes, partAt_append, size_ofU32, size_ofU64, hregion]
      exact ⟨hcreated, hstrings, hentries, hsearch, hpreload, hadapters, hstubs, hblobs, hcode,
        hfingerprint⟩

/-! ## 4. Headers and their bytes -/

/-- The places of the two words of a header that say nothing. -/
def Reserved (i : Nat) : Prop := 12 ≤ i ∧ i < 16 ∨ 92 ≤ i ∧ i < encodedSize

/-- A header is that of bytes: it tells their size, its bytes are the first of them but for the two
    words, all tables of words that it tells of can be read, and neither a part of the bytes nor
    more than them is accepted. -/
structure HeadOf (header : Header) (data : Bytes) : Prop where
  size : header.size.toNat = data.size
  room : encodedSize ≤ data.size
  bytes : ∀ i < encodedSize, ¬Reserved i → header.encode[i]? = data[i]?
  searchKeys : ∃ keys, Container.searchKeys ⟨data, header⟩ = .ok keys
  preloadIndices : ∃ places, Container.preloadIndices ⟨data, header⟩ = .ok places
  cut : ∀ n < data.size, decode (data.extract 0 n) =
    .error (.sizeMismatch (if n < encodedSize then encodedSize else header.size.toNat) n)
  extended : ∀ more : Bytes, more ≠ #[] →
    decode (data ++ more) = .error (.sizeMismatch header.size.toNat (data.size + more.size))

variable {header : Header} {data : Bytes}

theorem size_frontBytes : header.frontBytes.size = 12 := by
  simp only [frontBytes, Array.size_append, size_ofU32]

theorem size_backBytes : header.backBytes.size = 76 := by
  have hall := header.size_encode
  simp only [encode_eq_parts, Array.size_append, size_ofU32, size_frontBytes, encodedSize] at hall
  omega

/-- What stands in bytes before the reserved words and between them is what a header has there. -/
theorem getElem?_encode (hfront : PartAt data 0 header.frontBytes)
    (hback : PartAt data 16 header.backBytes) {i : Nat} (hi : i < encodedSize)
    (hused : ¬Reserved i) : header.encode[i]? = data[i]? := by
  have hall : PartAt header.encode 0
      (header.frontBytes ++ (ofU32 0 ++ (header.backBytes ++ ofU32 0))) :=
    (congrArg (PartAt header.encode 0) header.encode_eq_parts).mp (partAt_self _)
  obtain ⟨hfront', hrest⟩ := partAt_append.1 hall
  have hback' : PartAt header.encode 16 header.backBytes := by
    have := (partAt_append.1 (partAt_append.1 hrest).2).1
    rwa [size_frontBytes, size_ofU32] at this
  rcases Nat.lt_or_ge i 12 with hlow | hhigh
  · have hin : i < header.frontBytes.size := by rwa [size_frontBytes]
    have h1 := hfront'.getElem? hin
    have h2 := hfront.getElem? hin
    rw [Nat.zero_add] at h1 h2
    rw [h1, h2]
  · simp only [Reserved, encodedSize] at hused hi
    obtain ⟨j, rfl⟩ := Nat.exists_eq_add_of_le (show 16 ≤ i by omega)
    have hin : j < header.backBytes.size := by
      rw [size_backBytes]
      omega
    rw [hback'.getElem? hin, hback.getElem? hin]

/-- Bytes of another size than the header at their start tells are refused for that. -/
theorem decode_eq_sizeMismatch (hversion : header.version = formatVersion)
    (hfront : PartAt data 0 header.frontBytes) (hroom : encodedSize ≤ data.size)
    (hsize : header.size.toNat ≠ data.size) :
    decode data = .error (.sizeMismatch header.size.toNat data.size) := by
  have hleads : Leads header.frontBytes (read data.size)
      (throw (.sizeMismatch header.size.toNat data.size)) := by
    rw [frontBytes, hversion]
    refine (spells_readU32 _).bind_leads ?_
    simp only [ne_eq, not_true, if_false]
    refine (spells_readU32 _).bind_leads ?_
    simp only [not_true, if_false]
    intro bytes pos hpart h
    obtain ⟨h', hrun⟩ := (spells_readU32 header.size) hpart h
    refine ⟨h', ?_⟩
    rw [bind_of_ok hrun]
    simp only [hsize, not_false_eq_true, if_true]
    rfl
  obtain ⟨h', hrun⟩ := hleads hfront (Nat.zero_le _)
  rw [decode, if_neg (Nat.not_lt.2 hroom), runAt_eq (Nat.zero_le _), hrun]
  rfl

/-- A table that is within bytes can be read, if its items are as many bytes each as are counted. -/
theorem readMany_ok_of_within {α : Type} {item : Reading α} {itemSize : Nat} {offset count : UInt32}
    (h : Within data.size offset count itemSize)
    (hitem : ∀ ⦃pos⦄, pos + itemSize ≤ data.size →
      Ends item data pos (pos + itemSize) fun _ => False) :
    ∃ things, runAt data offset.toNat (readMany item count.toNat) = .ok things :=
  (ends_readMany hitem count.toNat h.2).runAt_ok (Nat.le_trans (Nat.le_add_right _ _) h.2)

/-- **Bytes are accepted with the header that is theirs.** -/
theorem headOf_of_decode (h : decode data = .ok header) : header.HeadOf data := by
  unfold decode at h
  split at h
  · cases h
  · rename_i hshort
    have hroom := Nat.not_lt.1 hshort
    obtain ⟨_, ⟨hversion, hsize, horder⟩, hfront, hback⟩ :=
      (yields_read data.size).of_runAt h (Nat.zero_le _)
    refine ⟨hsize, hroom, fun i => getElem?_encode hfront hback, ?_, ?_, fun n hn => ?_,
      fun more hmore => ?_⟩
    · have hkeys : Within data.size header.searchOffset header.entries.count SearchKey.size :=
        hsize ▸ horder.search
      refine readMany_ok_of_within hkeys fun pos hpos => ?_
      have hfirst : pos + 4 ≤ data.size := Nat.le_trans (Nat.add_le_add_left (by decide) pos) hpos
      exact (ends_readU32 hfirst).bind fun _ => (ends_readU32 hpos).bind fun _ => ends_pure _
    · have hplaces : Within data.size header.preload.offset header.preload.count 4 :=
        hsize ▸ horder.preload
      exact readMany_ok_of_within hplaces fun _ => ends_readU32
    · have hcut : (data.extract 0 n).size = n := by
        rw [Array.size_extract]
        omega
      by_cases hn' : n < encodedSize
      · rw [decode, hcut, if_pos hn', if_pos hn']
      · have hfront' : PartAt (data.extract 0 n) 0 header.frontBytes :=
          hfront.take (by rw [size_frontBytes]; exact Nat.le_trans (by decide) (Nat.not_lt.1 hn'))
        rw [if_neg hn', decode_eq_sizeMismatch hversion hfront', hcut]
        · rw [hcut]
          exact Nat.not_lt.1 hn'
        · rw [hcut, hsize]
          exact Nat.ne_of_gt hn
    · have hpos : 0 < more.size := Array.size_pos_iff.2 hmore
      rw [decode_eq_sizeMismatch hversion (hfront.append_right more), Array.size_append]
      · rw [Array.size_append]
        omega
      · rw [Array.size_append, hsize]
        omega

/-- **A header is written as its bytes; filled up, they are read as it exactly if its places are in
    order; and all bytes that it is read from are bytes that it is the header of.** -/
theorem decode_spec (header : Header) :
    header.write (ofCapacity encodedSize) = .ok () (filled encodedSize header.encode) ∧
      (header.version = formatVersion → encodedSize ≤ header.size.toNat →
        (decode (header.encode ++ zeros (header.size.toNat - encodedSize)) = .ok header ↔
          header.InOrder)) ∧
      ∀ data, decode data = .ok header → header.HeadOf data :=
  ⟨header.write_ofCapacity, decode_encode_iff, fun _ => headOf_of_decode⟩

/-- The header of a container of one stub without bytes, whose entry is before its key. -/
def oneStub : Header :=
  { blank ⟨.g1, 3, 3, 8, 128, 0⟩ 7 with
    size := 160
    strings := ⟨0, 96⟩
    entries := ⟨1, 96⟩
    searchOffset := 152
    preload := ⟨0, 160⟩
    counts := ⟨0, 1, 0, 0⟩ }

theorem decode_spec_oneStub :
    decode (oneStub.encode ++ zeros 64) = .ok oneStub ∧
      decode ((oneStub.encode ++ zeros 64).extract 0 159) = .error (.sizeMismatch 160 159) ∧
      decode ({ oneStub with searchOffset := 153 }.encode ++ zeros 64) ≠
        .ok { oneStub with searchOffset := 153 } := by
  have hinside : oneStub.InOrder := ⟨by decide, by decide, by decide, by decide, by decide⟩
  have hread : decode (oneStub.encode ++ zeros 64) = .ok oneStub :=
    ((decode_spec oneStub).2.1 rfl (by decide)).2 hinside
  have hsize : (oneStub.encode ++ zeros 64).size = 160 := by
    rw [Array.size_append, size_encode, size_zeros]
    rfl
  refine ⟨hread, ((decode_spec oneStub).2.2 _ hread).cut 159 (by rw [hsize]; decide),
    fun hstray => ?_⟩
  have horder := ((decode_spec { oneStub with searchOffset := 153 }).2.1 rfl (by decide)).1 hstray
  exact absurd horder.search (by decide)

end Header

end CodeVault
