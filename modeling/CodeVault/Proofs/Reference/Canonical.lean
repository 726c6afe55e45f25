import CodeVault.Proofs.Arena.Ample
import CodeVault.Proofs.Cursor.Yields
import CodeVault.Proofs.Reference

/-!
# References and their bytes

A reference has one form in bytes, and bytes are the form of one reference at most.

* `Reference.Fits`: the lengths of all texts in a reference fit words. Such a reference is written
  wherever there is room for it (`writes_write`), and read back whatever stands around it
  (`spells_encode`);
* **what was read stands there as it would be written** (`yields_read`), so that no tag, loader or
  primitive type is accepted that is never written;
* **writing and reading are inverse to each other** (`write_read_inverse`).
-/

namespace CodeVault

open Arena Bytes Cursor

variable {data : Bytes} {start : Nat}

/-! ## 1. References that can be written -/

theorem TypeDescriptor.writes_write {type : TypeDescriptor}
    (h : (ofString type.name).size < wordSpace) :
    Writes type.write type.encode :=
  (Arena.writes_write _).bind fun _ => (writes_writeString h).bind_pure

namespace Reference

variable {reference : Reference}

/-- The texts in a reference. -/
def texts : Reference → List String
  | type descriptor => [descriptor.name]
  | method descriptor => [descriptor.holder.name, descriptor.name, descriptor.signature]
  | string text => [text]
  | noData | null | primitive _ | systemLoader | platformLoader => []
  | sharedType _ | sharedMethod _ | sharedString _ => []

/-- The lengths of all texts in the reference fit words. -/
def Fits (reference : Reference) : Prop :=
  ∀ text ∈ reference.texts, (ofString text).size < wordSpace

theorem fits_of_texts_nil (h : reference.texts = []) : reference.Fits := by
  intro text htext
  rw [h] at htext
  cases htext

theorem writes_writeBody (h : reference.Fits) : Writes reference.writeBody reference.bodyBytes := by
  cases reference with
  | noData | null | systemLoader | platformLoader => exact writes_pure _
  | type descriptor => exact TypeDescriptor.writes_write (h descriptor.name (by simp [texts]))
  | method descriptor =>
    refine (TypeDescriptor.writes_write (h descriptor.holder.name (by simp [texts]))).bind
      fun _ => ?_
    refine (writes_writeString (h descriptor.name (by simp [texts]))).bind fun _ => ?_
    exact (writes_writeString (h descriptor.signature (by simp [texts]))).bind_pure
  | string text => exact (writes_writeString (h text (by simp [texts]))).bind_pure
  | primitive _ => exact (Arena.writes_write _).bind_pure
  | sharedType _ | sharedMethod _ | sharedString _ => exact (Arena.writes_write _).bind_pure

/-- **A reference that fits is written wherever there is room for it.** -/
theorem writes_write (h : reference.Fits) : Writes reference.write reference.encode :=
  (Arena.writes_write _).bind fun _ => writes_writeBody h

/-- **A reference that fits is read from its bytes**, whatever stands before and behind them. -/
theorem spells_encode (h : reference.Fits) : Spells reference.encode read reference := by
  have hroom : (ofCapacity reference.encode.size).HasRoom reference.encode.size :=
    hasRoom_filled (by simp)
  obtain ⟨_, hwrite⟩ := writes_write h hroom
  exact (reference.carries_write hwrite).2

/-! ## 2. What was read -/

/-- A type that was read stands there as it would be written. -/
theorem yields_readType : Yields readType data start fun type finish =>
    (ofString type.name).size < wordSpace ∧ Spans data start type.encode finish := by
  refine spans_readU32.bind fun raw middle hraw => ?_
  cases hloader : Loader.ofCode? raw.toNat with
  | none => exact yields_throw _
  | some loader =>
    refine spans_readString.bind fun name finish ⟨hname, hspan⟩ => yields_pure ⟨hname, ?_⟩
    have hcode : UInt32.ofNat loader.code = raw := by
      rw [Loader.code_of_ofCode? hloader, UInt32.ofNat_toNat]
    show Spans data start (ofU32 (UInt32.ofNat loader.code) ++ stringBytes name) finish
    rw [hcode]
    exact hraw.append hspan

/-- **What a tag calls for stands behind it as it would be written**, if the tag is one that is
    written at all. -/
theorem yields_readBody (tag : Int) (hhere : Spans data start #[] start) :
    Yields (readBody tag) data start fun reference finish =>
      reference.tag = tag ∧ reference.Fits ∧ Spans data start reference.bodyBytes finish := by
  unfold readBody
  split
  · exact yields_pure ⟨rfl, fits_of_texts_nil rfl, hhere⟩
  · exact yields_pure ⟨rfl, fits_of_texts_nil rfl, hhere⟩
  · refine yields_readType.bind fun type finish ⟨hname, hspan⟩ => yields_pure ⟨rfl, ?_, hspan⟩
    simpa [Fits, texts] using hname
  · refine yields_readType.bind fun holder middle ⟨hholder, hfirst⟩ => ?_
    refine spans_readString.bind fun name behind ⟨hname, hsecond⟩ => ?_
    refine spans_readString.bind fun signature finish ⟨hsignature, hthird⟩ => ?_
    refine yields_pure ⟨rfl, ?_, hfirst.append (hsecond.append hthird)⟩
    simpa [Fits, texts] using ⟨hholder, hname, hsignature⟩
  · refine spans_readString.bind fun text finish ⟨htext, hspan⟩ => yields_pure ⟨rfl, ?_, hspan⟩
    simpa [Fits, texts] using htext
  · refine spans_readU8.bind fun raw finish hspan => ?_
    cases hprimitive : Primitive.ofCode? raw.toNat with
    | none => exact yields_throw _
    | some p =>
      have hcode : UInt8.ofNat p.code = raw := by
        rw [Primitive.code_of_ofCode? hprimitive, UInt8.ofNat_toNat]
      refine yields_pure ⟨rfl, fits_of_texts_nil rfl, ?_⟩
      show Spans data start #[UInt8.ofNat p.code] finish
      rw [hcode]
      exact hspan
  · exact yields_pure ⟨rfl, fits_of_texts_nil rfl, hhere⟩
  · exact yields_pure ⟨rfl, fits_of_texts_nil rfl, hhere⟩
  · exact spans_readU32.bind fun n finish hspan => yields_pure ⟨rfl, fits_of_texts_nil rfl, hspan⟩
  · exact spans_readU32.bind fun n finish hspan => yields_pure ⟨rfl, fits_of_texts_nil rfl, hspan⟩
  · exact spans_readU32.bind fun n finish hspan => yields_pure ⟨rfl, fits_of_texts_nil rfl, hspan⟩
  · exact yields_throw _

/-- **A reference that was read stands there as it would be written.** -/
theorem yields_read : Yields read data start fun reference finish =>
    reference.Fits ∧ Spans data start reference.encode finish := by
  refine spans_readI32.bind fun word middle hword => ?_
  refine (yields_readBody word.toInt hword.behind).imp fun reference finish ⟨htag, hfits, hspan⟩ =>
    ⟨hfits, ?_⟩
  rw [encode, htag, Int32.ofInt_toInt]
  exact hword.append hspan

/-! ## 3. Both ways -/

/-- **Writing and reading references are inverse to each other.** A reference in which every text is
    shorter than 2^32 bytes is written into every arena that has room for it; from what is put at
    the end there it is read again, whatever stands before and behind, up to exactly the end. And
    what is read from any place of any bytes is written as exactly the bytes that were read, into
    every arena that has room for them. -/
theorem write_read_inverse :
    (∀ (reference : Reference) (arena : Arena), reference.Fits →
      arena.HasRoom reference.encode.size →
      reference.write arena = .ok () (arena.extend reference.encode) ∧
      ∀ before behind : Bytes,
        Reads read (before ++ reference.encode ++ behind) before.size reference
        (before.size + reference.encode.size)) ∧
    ∀ (data : Bytes) (start : Nat) (h : start ≤ data.size) (reference : Reference) (after : Cursor),
      read ⟨data, start, h⟩ = .ok reference after →
      after.data = data ∧ start ≤ after.pos ∧ reference.Fits ∧
      ∀ arena : Arena, arena.HasRoom (after.pos - start) →
        reference.write arena = .ok () (arena.extend (data.extract start after.pos)) := by
  refine ⟨fun reference arena hfits hroom => ?_, fun data start h reference after hread => ?_⟩
  · obtain ⟨_, hwrite⟩ := writes_write hfits hroom
    exact ⟨hwrite, fun before behind => spells_encode hfits ⟨before, behind, rfl, rfl⟩⟩
  · obtain ⟨hdata, hfits, hspan⟩ := yields_read hread
    have hsize : after.pos = start + reference.encode.size := hspan.finish_eq
    refine ⟨hdata, by omega, hfits, fun arena hroom => ?_⟩
    rw [hspan.extract]
    rw [hsize, Nat.add_sub_cancel_left] at hroom
    obtain ⟨_, hwrite⟩ := writes_write hfits hroom
    exact hwrite

/-- A method whose holder has a name with a character of two bytes. -/
def sizeOfHall : Reference := .method ⟨⟨"app/Größe", .app⟩, "size", "()I"⟩

theorem write_read_inverse_sizeOfHall :
    sizeOfHall.write (ofCapacity 64) = .ok () ((ofCapacity 64).extend sizeOfHall.encode) ∧
    ∃ (h : 2 ≤ (#[1, 2] ++ sizeOfHall.encode ++ #[3]).size) (after : Cursor),
      read ⟨#[1, 2] ++ sizeOfHall.encode ++ #[3], 2, h⟩ = .ok sizeOfHall after ∧
      after.pos = 2 + sizeOfHall.encode.size ∧
      sizeOfHall.write (ofCapacity 64) = .ok ()
        ((ofCapacity 64).extend ((#[1, 2] ++ sizeOfHall.encode ++ #[3]).extract 2 after.pos)) := by
  have hfits : sizeOfHall.Fits := by
    unfold Fits
    decide +kernel
  have hroom : (ofCapacity 64).HasRoom sizeOfHall.encode.size := ⟨rfl, by decide +kernel⟩
  obtain ⟨hwrite, hreads⟩ := write_read_inverse.1 sizeOfHall (ofCapacity 64) hfits hroom
  have hstart : 2 ≤ (#[1, 2] ++ sizeOfHall.encode ++ #[3]).size := by
    simp only [Array.size_append]
    exact Nat.le_trans (Nat.le_add_right 2 _) (Nat.le_add_right _ _)
  obtain ⟨hfinish, hread⟩ := hreads #[1, 2] #[3] hstart
  obtain ⟨-, -, -, hwritten⟩ := write_read_inverse.2 _ 2 hstart _ _ hread
  refine ⟨hwrite, hstart, _, hread, rfl, hwritten _ ⟨rfl, ?_⟩⟩
  show 2 + sizeOfHall.encode.size - 2 ≤ _
  rw [Nat.add_sub_cancel_left]
  exact hroom.room

end Reference

end CodeVault
