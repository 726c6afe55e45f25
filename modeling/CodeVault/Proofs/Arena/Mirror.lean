import CodeVault.Proofs.Arena.Ample
import CodeVault.Proofs.Arena.Room

/-!
# Reading mirrors writing

Whatever is written one behind the other into an arena is read back in the same order.

* a `Datum` is what one request writes, and its `Shape` is what a reader has to know of it;
* the bytes of a datum depend on where it starts (`bytesAt`), since zeros up to a boundary are a
  datum too; a datum is written as these bytes exactly if its text can be written at all and there
  is room (`write_filled`, `write_ok`), and is read back from them (`reads_read`);
* **a sequence of data is written exactly if each can be written and all together find room, and
  what is read back are the data, each up to the place up to which it was written**
  (`readAll_mirrors_writeAll`).
-/

namespace CodeVault

open Arena Bytes Cursor

variable {arena after : Arena} {capacity start : Nat} {before data : Bytes}

/-! ## 1. Data -/

/-- What is written to an arena at once. -/
inductive Datum where
  | u8 (value : UInt8)
  | u16 (value : UInt16)
  | u32 (value : UInt32)
  | i32 (value : Int32)
  | u64 (value : UInt64)
  | address (value : Address)
  | text (content : String)
  | name (content : String)
  | bytes (content : Bytes)
  | padding
  deriving DecidableEq

/-- What a reader has to know of a datum: of which sort it is, and of bytes how many. -/
inductive Shape where
  | u8
  | u16
  | u32
  | i32
  | u64
  | address
  | text
  | name
  | bytes (size : Nat)
  | padding

/-- Reads a datum of the shape. -/
def Shape.read : Shape → Reading Datum
  | u8 => do return .u8 (← readU8)
  | u16 => do return .u16 (← readU16)
  | u32 => do return .u32 (← readU32)
  | i32 => do return .i32 (← readI32)
  | u64 => do return .u64 (← readU64)
  | address => do return .address (← readAddress)
  | text => do return .text (← readString)
  | name => do return .name (← readCString)
  | bytes size => do return .bytes (← readBytes size)
  | padding => do
    Cursor.align
    return .padding

namespace Datum

/-- The shape of a datum. -/
def shape : Datum → Shape
  | u8 _ => .u8
  | u16 _ => .u16
  | u32 _ => .u32
  | i32 _ => .i32
  | u64 _ => .u64
  | address _ => .address
  | text _ => .text
  | name _ => .name
  | bytes content => .bytes content.size
  | padding => .padding

/-- Writes a datum. -/
def write : Datum → Writing Unit
  | u8 value => do let _ ← writeU8 value; return ()
  | u16 value => do let _ ← writeU16 value; return ()
  | u32 value => do let _ ← writeU32 value; return ()
  | i32 value => do let _ ← writeI32 value; return ()
  | u64 value => do let _ ← writeU64 value; return ()
  | address value => do let _ ← writeAddress value; return ()
  | text content => do let _ ← writeString content; return ()
  | name content => do let _ ← writeCString content; return ()
  | bytes content => do let _ ← Arena.write content; return ()
  | padding => Arena.align

/-- The bytes of a datum that starts at a place. -/
def bytesAt (start : Nat) : Datum → Bytes
  | u8 value => #[value]
  | u16 value => ofU16 value
  | u32 value => ofU32 value
  | i32 value => ofU32 value.toUInt32
  | u64 value | address value => ofU64 value
  | text content => stringBytes content
  | name content => (ofString content).push 0
  | bytes content => content
  | padding => zeros (paddingAfter start)

/-- The datum can be written: the length of a text fits a word, and a name has no nul in it. -/
def Fits : Datum → Prop
  | text content => (ofString content).size < wordSpace
  | name content => (0 : UInt8) ∉ ofString content
  | _ => True

instance (datum : Datum) : Decidable datum.Fits :=
  match datum with
  | text content => inferInstanceAs (Decidable ((ofString content).size < wordSpace))
  | name content => inferInstanceAs (Decidable ((0 : UInt8) ∉ ofString content))
  | u8 _ | u16 _ | u32 _ | i32 _ | u64 _ | address _ | bytes _ | padding =>
    inferInstanceAs (Decidable True)

/-! ## 2. One datum -/

/-- **A datum that can be written and has room is put behind the others.** -/
theorem write_filled (datum : Datum) (hfits : datum.Fits)
    (hroom : before.size + (datum.bytesAt before.size).size ≤ capacity) :
    datum.write (filled capacity before) =
      .ok () (filled capacity (before ++ datum.bytesAt before.size)) := by
  have hputs : ∀ {part : Bytes}, Writes datum.write part → before.size + part.size ≤ capacity →
      datum.write (filled capacity before) = .ok () (filled capacity (before ++ part)) := by
    intro part hwrites hpart
    obtain ⟨_, hrun⟩ := hwrites.puts hpart
    exact hrun
  cases datum with
  | u8 | u16 | u32 | i32 | u64 | address | bytes => exact hputs (writes_write _).bind_pure hroom
  | text content => exact hputs (writes_writeString hfits).bind_pure hroom
  | name content => exact hputs (writes_writeCString hfits).bind_pure hroom
  | padding =>
    have hroom' : (#[] : Bytes).size + (Container.padded before).size ≤ capacity := by
      rw [Container.padded, Array.size_append]
      exact Nat.le_trans (Nat.le_of_eq (Nat.zero_add _)) hroom
    have halign := align_filled rfl hroom'
    rwa [Array.empty_append, Array.empty_append] at halign

/-- **What was written is a datum that can be written, and stands behind the others.** -/
theorem write_ok (datum : Datum) (h : datum.write arena = .ok () after) :
    datum.Fits ∧ after = arena.extend (datum.bytesAt arena.position) := by
  cases datum with
  | u8 | u16 | u32 | i32 | u64 | address | bytes => exact ⟨trivial, (appends_write _).bind_pure h⟩
  | text content =>
    obtain ⟨_, _, hwrite, hdone⟩ := bind_ok h
    obtain ⟨-, rfl⟩ := pure_ok hdone
    exact ⟨Nat.not_le.1 (refusal_eq_ok.1 hwrite).1, (carries_writeString content hwrite).1⟩
  | name content =>
    obtain ⟨_, _, hwrite, hdone⟩ := bind_ok h
    obtain ⟨-, rfl⟩ := pure_ok hdone
    obtain ⟨hnul, -, -, hafter⟩ := writeCString_ok hwrite
    exact ⟨hnul, hafter⟩
  | padding => exact ⟨trivial, align_ok h⟩

/-- **A datum is read from its bytes, up to where they end.** -/
theorem reads_read (datum : Datum) (hfits : datum.Fits)
    (hpart : PartAt data start (datum.bytesAt start)) :
    Reads datum.shape.read data start datum (start + (datum.bytesAt start).size) := by
  cases datum with
  | u8 value => exact (spells_readU8 value).bind_pure hpart
  | u16 value => exact (spells_readU16 value).bind_pure hpart
  | u32 value => exact (spells_readU32 value).bind_pure hpart
  | i32 value => exact (spells_readI32 value).bind_pure hpart
  | u64 value => exact (spells_readU64 value).bind_pure hpart
  | address value => exact (spells_readAddress value).bind_pure hpart
  | text content => exact (spells_readString hfits).bind_pure hpart
  | name content => exact (spells_readCString hfits).bind_pure hpart
  | bytes content => exact (spells_readBytes content).bind_pure hpart
  | padding =>
    have hend : start + (bytesAt start padding).size = alignUp start := by
      rw [bytesAt, size_zeros, alignUp_eq]
    rw [hend]
    have hle := hpart.le
    rw [hend] at hle
    exact (reads_align hle).bind (reads_pure _ _)

/-- Writing a datum leaves room for nothing that was not there. -/
theorem fits_write (datum : Datum) {capacity slots : Nat} :
    Preserves (Arena.Fits capacity slots) datum.write := by
  cases datum with
  | text content => exact (outlasts_fits.writeString content).bind fun _ => preserves_pure _
  | name content => exact (outlasts_fits.writeCString content).bind fun _ => preserves_pure _
  | padding => exact outlasts_fits.align
  | u8 | u16 | u32 | i32 | u64 | address | bytes =>
    exact (outlasts_fits.write _).bind fun _ => preserves_pure _

end Datum

/-! ## 3. Data in sequence -/

/-- Writes data one behind the other, and answers the place behind each. -/
def writeAll : List Datum → Writing (List Nat)
  | [] => return []
  | datum :: later => do
    datum.write
    let place := (← get).position
    return place :: (← writeAll later)

/-- Reads data of these shapes one behind the other, and answers them and the place behind each. -/
def readAll : List Shape → Reading (List Datum × List Nat)
  | [] => return ([], [])
  | shape :: later => do
    let datum ← shape.read
    let place := (← get).pos
    let (others, places) ← readAll later
    return (datum :: others, place :: places)

/-- The bytes of data one behind the other, from a place on. -/
def bytesOf (start : Nat) : List Datum → Bytes
  | [] => #[]
  | datum :: later => datum.bytesAt start ++ bytesOf (start + (datum.bytesAt start).size) later

/-- The places behind data one behind the other, from a place on. -/
def placesOf (start : Nat) : List Datum → List Nat
  | [] => []
  | datum :: later =>
    let place := start + (datum.bytesAt start).size
    place :: placesOf place later

/-- **Data that can be written and have room together are written one behind the other.** -/
theorem writeAll_filled {items : List Datum} (hfits : ∀ datum ∈ items, datum.Fits)
    (hstart : before.size = start) (hroom : start + (bytesOf start items).size ≤ capacity) :
    writeAll items (filled capacity before) =
      .ok (placesOf start items) (filled capacity (before ++ bytesOf start items)) := by
  induction items generalizing before start with
  | nil =>
    rw [bytesOf, Array.append_empty]
    rfl
  | cons datum later ih =>
    obtain ⟨hdatum, hlater⟩ := List.forall_mem_cons.1 hfits
    rw [bytesOf, Array.size_append, ← Nat.add_assoc] at hroom
    subst hstart
    have hfirst : datum.write (filled capacity before) =
        .ok () (filled capacity (before ++ datum.bytesAt before.size)) :=
      datum.write_filled hdatum (Nat.le_trans (Nat.le_add_right _ _) hroom)
    have hhere : (get : Writing Arena) (filled capacity (before ++ datum.bytesAt before.size)) =
        .ok _ _ := rfl
    have hrest := ih hlater Array.size_append hroom
    rw [writeAll, bind_of_ok hfirst, bind_of_ok hhere, bind_of_ok hrest, position_filled,
      Array.size_append, bytesOf, Array.append_assoc]
    rfl

/-- **What was written in sequence are data that can be written, one behind the other.** -/
theorem writeAll_ok {items : List Datum} {places : List Nat}
    (h : writeAll items arena = .ok places after) :
    (∀ datum ∈ items, datum.Fits) ∧ places = placesOf arena.position items ∧
      after = arena.extend (bytesOf arena.position items) := by
  induction items generalizing arena places with
  | nil =>
    obtain ⟨rfl, rfl⟩ := pure_ok h
    exact ⟨fun _ hmem => (List.not_mem_nil hmem).elim, rfl, (extend_empty _).symm⟩
  | cons datum later ih =>
    obtain ⟨_, middle, hwrite, hrest⟩ := bind_ok h
    obtain ⟨hdatum, rfl⟩ := datum.write_ok hwrite
    obtain ⟨_, _, hget, hothers⟩ := bind_ok hrest
    cases hget
    obtain ⟨others, last, hlater, hdone⟩ := bind_ok hothers
    obtain ⟨rfl, rfl⟩ := pure_ok hdone
    obtain ⟨hfits, rfl, rfl⟩ := ih hlater
    refine ⟨List.forall_mem_cons.2 ⟨hdatum, hfits⟩, ?_, ?_⟩
    · rw [position_extend, placesOf]
    · rw [position_extend, extend_extend, bytesOf]

theorem fits_writeAll {slots : Nat} (items : List Datum) :
    Preserves (Arena.Fits capacity slots) (writeAll items) := by
  induction items with
  | nil => exact preserves_pure _
  | cons datum later ih =>
    exact datum.fits_write.bind fun _ => preserves_get.bind fun _ => ih.bind fun _ =>
      preserves_pure _

/-- **Data are read from their bytes one behind the other.** -/
theorem reads_readAll {items : List Datum} (hfits : ∀ datum ∈ items, datum.Fits)
    (hpart : PartAt data start (bytesOf start items)) :
    Reads (readAll (items.map Datum.shape)) data start (items, placesOf start items)
      (start + (bytesOf start items).size) := by
  induction items generalizing start with
  | nil => exact reads_pure _ _
  | cons datum later ih =>
    obtain ⟨hdatum, hlater⟩ := List.forall_mem_cons.1 hfits
    rw [bytesOf, partAt_append] at hpart
    rw [bytesOf, Array.size_append, ← Nat.add_assoc]
    refine (datum.reads_read hdatum hpart.1).bind (Reads.bind_get fun _ => ?_)
    exact (ih hlater hpart.2).bind (reads_pure _ _)

/-- **Reading mirrors writing.** Data are written one behind the other into an arena of which
    nothing was asked yet exactly if each of them can be written and the arena has room for all.
    What is then read from the start of the arena's bytes, by the shapes of the data in the same
    order, are these data, each of them up to the place up to which it was written; and nothing is
    left to be read. -/
theorem readAll_mirrors_writeAll (items : List Datum) (capacity : Nat) :
    ((∃ places arena, writeAll items (ofCapacity capacity) = .ok places arena) ↔
      (∀ datum ∈ items, datum.Fits) ∧ (bytesOf 0 items).size ≤ capacity) ∧
    ∀ places arena, writeAll items (ofCapacity capacity) = .ok places arena →
      ∃ cursor, readAll (items.map Datum.shape) (ofBytes arena.bytes) = .ok (items, places) cursor ∧
        cursor.data = arena.bytes ∧ cursor.remaining = 0 := by
  have hnone : (ofCapacity capacity).position = 0 := rfl
  refine ⟨⟨?_, ?_⟩, ?_⟩
  · rintro ⟨places, arena, hwrite⟩
    obtain ⟨hfits, -, rfl⟩ := writeAll_ok hwrite
    have hroom := ((fits_writeAll items).ok (fits_ofCapacity capacity) hwrite).room
    rw [position_extend, hnone, Nat.zero_add, Nat.add_zero] at hroom
    exact ⟨hfits, hroom⟩
  · rintro ⟨hfits, hroom⟩
    have hall : 0 + (bytesOf 0 items).size ≤ capacity := by rwa [Nat.zero_add]
    exact ⟨_, _, writeAll_filled hfits rfl hall⟩
  · intro places arena hwrite
    obtain ⟨hfits, hplaces, harena⟩ := writeAll_ok hwrite
    rw [hnone] at hplaces harena
    have hbytes : arena.bytes = bytesOf 0 items := by
      rw [harena]
      exact Array.empty_append
    rw [hbytes, hplaces]
    obtain ⟨hend, hread⟩ := reads_readAll hfits (partAt_self _) (Nat.zero_le _)
    refine ⟨_, hread, rfl, ?_⟩
    show (bytesOf 0 items).size - (0 + (bytesOf 0 items).size) = 0
    rw [Nat.zero_add, Nat.sub_self]

/-- Data of different sizes, with texts of which one has a character of two bytes, up to a boundary
    twice. -/
def assorted : List Datum :=
  [.u8 3, .padding, .u16 9, .text "Größe", .i32 (-1), .name "stub", .bytes #[1, 0, 2], .padding,
    .address 0x7fff0000, .u64 5, .u32 0xfeed, .padding]

theorem readAll_mirrors_writeAll_assorted :
    ∃ places arena, writeAll assorted (ofCapacity 64) = .ok places arena ∧
      ∃ cursor, readAll (assorted.map Datum.shape) (ofBytes arena.bytes) = .ok (assorted,
        places) cursor ∧
        cursor.remaining = 0 := by
  obtain ⟨hwritten, hread⟩ := readAll_mirrors_writeAll assorted 64
  obtain ⟨places, arena, hwrite⟩ := hwritten.2 ⟨by decide +kernel, by decide +kernel⟩
  obtain ⟨cursor, hmirror, -, hnothing⟩ := hread places arena hwrite
  exact ⟨places, arena, hwrite, cursor, hmirror, hnothing⟩

end CodeVault
