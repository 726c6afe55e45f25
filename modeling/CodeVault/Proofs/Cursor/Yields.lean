import CodeVault.Proofs.Cursor.Reads

/-!
# What stands where a reading action ended well

The way back from an answer to the bytes that it was read from.

* `Yields action data start holds`: if the action ends well in `data`, its answer and the place
  behind are as `holds` says; it composes along a chain (`Yields.bind`), and a refusal yields
  anything;
* **a word that was read stands where it was read** (`yields_readU32`, `yields_readU64`);
* `Spans data start part finish`: a part stands in `data` from one place to another. Parts compose
  as the places do (`Spans.append`), so that a text that was read stands there behind its length
  (`spans_readString`);
* things that take at least so many bytes each take at least that many times their number
  (`yields_readMany`).
-/

namespace CodeVault.Cursor

open Bytes

variable {ε α β : Type} {data : Bytes} {start : Nat}

/-! ## 1. Chains -/

/-- If the action ends well in `data` from `start` on, `holds` is true of its answer and of the
    place behind. -/
def Yields (action : EStateM ε Cursor α) (data : Bytes) (start : Nat)
    (holds : α → Nat → Prop) : Prop :=
  ∀ ⦃h : start ≤ data.size⦄ ⦃a : α⦄ ⦃after : Cursor⦄, action ⟨data, start, h⟩ = .ok a after →
    after.data = data ∧ holds a after.pos

variable {holds : α → Nat → Prop} {later : β → Nat → Prop}

theorem yields_pure {a : α} (h : holds a start) :
    Yields (pure a : EStateM ε Cursor α) data start holds := by
  intro hstart b after hrun
  obtain ⟨rfl, rfl⟩ := pure_ok hrun
  exact ⟨rfl, h⟩

theorem yields_throw (e : ε) : Yields (throw e : EStateM ε Cursor α) data start holds :=
  fun _ _ _ hrun => nomatch hrun

/-- **A chain yields what its second link does behind all that the first may end with.** -/
theorem Yields.bind {x : EStateM ε Cursor α} {f : α → EStateM ε Cursor β}
    (hx : Yields x data start holds)
    (hf : ∀ a middle, holds a middle → Yields (f a) data middle later) :
    Yields (x >>= f) data start later := by
  intro hstart b after hrun
  obtain ⟨a, ⟨middleData, middle, hmiddle⟩, hfirst, hrest⟩ := bind_ok hrun
  obtain ⟨hsame, hholds⟩ := hx hfirst
  cases hsame
  exact hf a middle hholds hrest

/-- An action that asks where it is. -/
theorem Yields.bind_get {f : Cursor → EStateM ε Cursor β}
    (hf : ∀ h : start ≤ data.size, Yields (f ⟨data, start, h⟩) data start later) :
    Yields (get >>= f) data start later :=
  fun hstart _ _ hrun => hf hstart hrun

theorem Yields.imp {action : EStateM ε Cursor α} {weaker : α → Nat → Prop}
    (h : Yields action data start holds) (himp : ∀ a finish, holds a finish → weaker a finish) :
    Yields action data start weaker := by
  intro hstart a after hrun
  obtain ⟨hsame, hholds⟩ := h hrun
  exact ⟨hsame, himp a after.pos hholds⟩

/-- A check before the rest. -/
theorem yields_unless {c : Prop} [Decidable c] {e : ε} {f : α → EStateM ε Cursor β} {u : α}
    (hf : ¬c → Yields (f u) data start later) :
    Yields (if c then (throw e : EStateM ε Cursor α) >>= f else f u) data start later := by
  intro hstart b after hrun
  obtain ⟨hc, hrest⟩ := refusal_eq_ok.1 hrun
  exact hf hc hrest

/-- What is yielded is not behind the end of the bytes. -/
theorem Yields.inside {action : EStateM ε Cursor α} (h : Yields action data start holds) :
    Yields action data start fun a finish => finish ≤ data.size ∧ holds a finish := by
  rintro hstart a ⟨afterData, finish, hfinish⟩ hrun
  obtain ⟨hsame, hholds⟩ := h hrun
  cases hsame
  exact ⟨rfl, hfinish, hholds⟩

/-- What an action yields is known of its answer when it is run. -/
theorem Yields.of_runAt {action : Reading α} {a : α} (h : Yields action data start holds)
    (hrun : runAt data start action = .ok a) (hstart : start ≤ data.size) :
    ∃ finish, holds a finish := by
  rw [runAt_eq hstart] at hrun
  cases haction : action ⟨data, start, hstart⟩ with
  | ok b after =>
    rw [haction] at hrun
    cases hrun
    exact ⟨after.pos, (h haction).2⟩
  | error e after =>
    rw [haction] at hrun
    cases hrun

/-! ## 2. From one place to another -/

/-- `part` stands in `data` from `start` to `finish`. -/
structure Spans (data : Bytes) (start : Nat) (part : Bytes) (finish : Nat) : Prop where
  partAt : PartAt data start part
  finish_eq : finish = start + part.size

section Spans

variable {first second : Bytes} {middle finish : Nat}

/-- **Parts that stand one behind the other are one part.** -/
theorem Spans.append (h : Spans data start first middle) (h' : Spans data middle second finish) :
    Spans data start (first ++ second) finish := by
  obtain ⟨hfirst, rfl⟩ := h
  obtain ⟨hsecond, rfl⟩ := h'
  exact ⟨partAt_append.2 ⟨hfirst, hsecond⟩, by rw [Array.size_append, Nat.add_assoc]⟩

/-- Behind a part stands the empty one. -/
theorem Spans.behind (h : Spans data start first finish) : Spans data finish #[] finish := by
  obtain ⟨⟨before, rest, rfl, rfl⟩, rfl⟩ := h
  exact ⟨⟨before ++ first, rest, by rw [Array.append_empty], Array.size_append⟩, rfl⟩

/-- The bytes from the one place to the other are the part. -/
theorem Spans.extract (h : Spans data start first finish) : data.extract start finish = first :=
  h.finish_eq ▸ h.partAt.extract

end Spans

/-! ## 3. Words -/

/-- **Bytes that were read stand where they were read.** -/
theorem yields_readBytes (n : Nat) :
    Yields (readBytes n) data start fun bytes finish =>
      PartAt data start bytes ∧ bytes.size = n ∧ finish = start + n := by
  intro hstart bytes after hrun
  unfold readBytes at hrun
  split at hrun
  · rename_i hroom
    cases hrun
    have hslice : data.slice? start n = some (data.extract start (start + n)) := if_pos hroom
    exact ⟨rfl, partAt_of_slice? hslice, size_of_slice? hslice, rfl⟩
  · cases hrun

/-- An action that goes to a place is there if it ends well. -/
theorem yields_seek (pos : Nat) : Yields (seek pos) data start fun _ finish => finish = pos := by
  intro hstart _ after hrun
  unfold seek at hrun
  split at hrun <;> cases hrun
  exact ⟨rfl, rfl⟩

theorem yields_readU32 :
    Yields readU32 data start fun word finish => PartAt data start (ofU32 word) ∧
      finish = start + 4 := by
  refine (yields_readBytes 4).bind fun bytes middle ⟨hpart, hsize, hmiddle⟩ =>
    yields_pure ⟨?_, hmiddle⟩
  rwa [ofU32_ofNat_toNat hsize]

theorem yields_readU64 :
    Yields readU64 data start fun word finish => PartAt data start (ofU64 word) ∧
      finish = start + 8 := by
  refine (yields_readBytes 8).bind fun bytes middle ⟨hpart, hsize, hmiddle⟩ =>
    yields_pure ⟨?_, hmiddle⟩
  rwa [ofU64_ofNat_toNat hsize]

theorem spans_readU8 : Yields readU8 data start fun byte finish =>
    Spans data start #[byte] finish := by
  refine (yields_readBytes 1).bind fun bytes middle ⟨hpart, hsize, hmiddle⟩ => yields_pure ?_
  obtain ⟨byte, rfl⟩ := Array.size_eq_one_iff.1 hsize
  rw [ofNat_toNat_singleton]
  exact ⟨hpart, hmiddle⟩

theorem spans_readU32 : Yields readU32 data start fun word finish =>
    Spans data start (ofU32 word) finish :=
  yields_readU32.imp fun word finish ⟨hword, hfinish⟩ => ⟨hword, by rw [hfinish, size_ofU32]⟩

theorem spans_readI32 :
    Yields readI32 data start fun word finish => Spans data start (ofU32 word.toUInt32) finish :=
  spans_readU32.bind fun _ _ hword => yields_pure hword

/-- The next word, and what is done with it. -/
theorem yields_readU32_bind {f : UInt32 → Reading β}
    (hf : ∀ word, PartAt data start (ofU32 word) → Yields (f word) data (start + 4) later) :
    Yields (readU32 >>= f) data start later :=
  yields_readU32.bind fun word _ ⟨hword, hmiddle⟩ => hmiddle ▸ hf word hword

/-! ## 4. Texts and lists -/

/-- A text that was read took its nul at least. -/
theorem yields_readTerminated :
    Yields readTerminated data start fun _ finish => start < finish := by
  intro hstart text after hrun
  unfold readTerminated at hrun
  split at hrun
  · cases hrun
  · rename_i found hfound
    cases hrun
    exact ⟨rfl, Nat.lt_succ_of_le (findByte?_eq_some hfound).1⟩

/-- What is decoded was read before: the bytes of the text. -/
theorem yields_decodeText (bytes : Bytes) :
    Yields (decodeText bytes) data start fun text finish => ofString text = bytes ∧
      finish = start := by
  unfold decodeText
  split
  · rename_i hdecode
    exact yields_pure ⟨ofString_of_decode hdecode, rfl⟩
  · exact yields_throw _

/-- **A text that was read stands behind its length**, which fits a word. -/
theorem spans_readString : Yields readString data start fun text finish =>
    (ofString text).size < wordSpace ∧
      Spans data start (ofU32 (UInt32.ofNat (ofString text).size) ++ ofString text) finish := by
  refine spans_readU32.bind fun word middle hword => (yields_readBytes _).bind ?_
  rintro bytes behind ⟨hbytes, hsize, hbehind⟩
  refine (yields_decodeText bytes).imp fun text finish ⟨htext, hfinish⟩ => ?_
  subst htext hfinish
  have hlength : UInt32.ofNat (ofString text).size = word := by rw [hsize, UInt32.ofNat_toNat]
  rw [hlength]
  exact ⟨hsize ▸ word.toNat_lt, hword.append ⟨hbytes, by rw [hbehind, hsize]⟩⟩

/-- **Things that take at least `least` bytes each take at least that many times their number.** -/
theorem yields_readMany {item : Reading α} {least : Nat}
    (h : ∀ start, Yields item data start fun _ finish => start + least ≤ finish) (count : Nat) :
    Yields (readMany item count) data start fun _ finish => start + count * least ≤ finish := by
  induction count generalizing start with
  | zero => exact yields_pure (by omega)
  | succ count ih =>
    refine (h start).bind fun first middle hfirst => ih.bind fun rest finish hrest => yields_pure ?_
    rw [Nat.succ_mul]
    omega

end CodeVault.Cursor
