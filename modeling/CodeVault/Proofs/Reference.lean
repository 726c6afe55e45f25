import CodeVault.Proofs.Arena.Append
import CodeVault.Reference

/-!
# References are read back

* every reference that is written is read back as it was; `Reference.encode` is its form in bytes;
* writing one preserves what outlasts all writing (`preserves_write`).
-/

namespace CodeVault

open Arena Bytes Cursor

/-! ## 1. Types -/

/-- The bytes of a type: its loader, then its name. -/
def TypeDescriptor.encode (type : TypeDescriptor) : Bytes :=
  ofU32 (UInt32.ofNat type.loader.code) ++ stringBytes type.name

/-- The loader of a type is found by the word that was written for it. -/
theorem Loader.ofCode?_word (loader : Loader) :
    Loader.ofCode? (UInt32.ofNat loader.code).toNat = some loader := by
  cases loader <;> rfl

theorem TypeDescriptor.carries_write (type : TypeDescriptor) :
    Carries type.write type.encode Reference.readType type := by
  refine (carries_writeU32 (UInt32.ofNat type.loader.code)).bind fun _ => ?_
  simp only [Loader.ofCode?_word]
  exact (carries_writeString type.name).map_write.map_read

theorem TypeDescriptor.preserves_write {holds : Arena → Prop} {edge : Nat} (h : Outlasts holds edge)
    (type : TypeDescriptor) : Preserves holds type.write :=
  (h.write _).bind fun _ => (h.writeString _).bind fun _ => preserves_pure _

/-! ## 2. References -/

namespace Reference

/-- The bytes behind the tag of a reference. -/
def bodyBytes : Reference → Bytes
  | noData | null | systemLoader | platformLoader => #[]
  | type descriptor => descriptor.encode
  | method descriptor =>
    descriptor.holder.encode ++ (stringBytes descriptor.name ++ stringBytes descriptor.signature)
  | string text => stringBytes text
  | primitive p => #[UInt8.ofNat p.code]
  | sharedType n | sharedMethod n | sharedString n => ofU32 n

/-- The bytes of a reference: its tag and what the tag calls for. -/
def encode (reference : Reference) : Bytes :=
  ofU32 (Int32.ofInt reference.tag).toUInt32 ++ reference.bodyBytes

/-- A reference takes at least the four bytes of its tag. -/
theorem four_le_size_encode (reference : Reference) : 4 ≤ reference.encode.size := by
  simp only [encode, Array.size_append, size_ofU32]
  omega

theorem tag_word (reference : Reference) : (Int32.ofInt reference.tag).toInt = reference.tag := by
  cases reference <;> rfl

/-- **What a tag calls for is read back behind it.** -/
theorem carries_writeBody (reference : Reference) :
    Carries reference.writeBody reference.bodyBytes (readBody reference.tag) reference := by
  cases reference with
  | noData => exact carries_pure _ noData
  | null => exact carries_pure _ null
  | systemLoader => exact carries_pure _ systemLoader
  | platformLoader => exact carries_pure _ platformLoader
  | type descriptor => exact descriptor.carries_write.map_read
  | method descriptor =>
    refine descriptor.holder.carries_write.bind fun _ => ?_
    refine (carries_writeString descriptor.name).bind fun _ => ?_
    exact (carries_writeString descriptor.signature).map_write.map_read
  | string text => exact (carries_writeString text).map_write.map_read
  | primitive p =>
    have hcode : Primitive.ofCode? (UInt8.ofNat p.code).toNat = some p := by cases p <;> rfl
    have hchain : Carries (primitive p).writeBody (#[UInt8.ofNat p.code] ++ #[]) (readBody 4)
        (primitive p) := by
      refine (carries_writeU8 (UInt8.ofNat p.code)).bind fun _ => ?_
      simp only [hcode]
      exact carries_pure _ (primitive p)
    rwa [Array.append_empty] at hchain
  | sharedType n => exact (carries_writeU32 n).map_write.map_read
  | sharedMethod n => exact (carries_writeU32 n).map_write.map_read
  | sharedString n => exact (carries_writeU32 n).map_write.map_read

/-- Wherever the bytes of the reference stand, it is read from them. -/
def Legible (reference : Reference) : Prop := Spells reference.encode read reference

/-- **A reference that is written is read back.** -/
theorem carries_write (reference : Reference) :
    Carries reference.write reference.encode read reference := by
  refine (carries_writeI32 (Int32.ofInt reference.tag)).bind fun _ => ?_
  rw [tag_word]
  exact reference.carries_writeBody

theorem preserves_write {holds : Arena → Prop} {edge : Nat} (h : Outlasts holds edge)
    (reference : Reference) : Preserves holds reference.write := by
  refine (h.write _).bind fun _ => ?_
  cases reference with
  | noData | null | systemLoader | platformLoader => exact preserves_pure _
  | type descriptor => exact descriptor.preserves_write h
  | method descriptor =>
    refine (descriptor.holder.preserves_write h).bind fun _ => (h.writeString _).bind fun _ => ?_
    exact (h.writeString _).bind fun _ => preserves_pure _
  | string text => exact (h.writeString text).bind fun _ => preserves_pure _
  | primitive p => exact (h.write _).bind fun _ => preserves_pure _
  | sharedType n | sharedMethod n | sharedString n =>
    exact (h.write _).bind fun _ => preserves_pure _

end Reference

end CodeVault
