import CodeVault.Arena
import CodeVault.Proofs.Cursor.Reads

/-!
# What a writing action writes

Writing puts bytes at the end of an arena, or stops.

* `Appends action part`: if the action ends well, it has put `part` at the end and changed nothing
  else;
* `Carries action part reading a`: besides, `reading` reads `part` back as `a`. Writer and reader go
  side by side, link by link (`Carries.bind`);
* `Outlasts holds edge`: what every action that writes preserves, whatever its outcome, such as the
  bytes that an arena starts with (`outlasts_base`).
-/

namespace CodeVault.Arena

open Bytes Cursor

variable {ε φ α β γ δ : Type}

/-! ## 1. More bytes at the end -/

/-- The arena with more bytes at its end. -/
def extend (arena : Arena) (part : Bytes) : Arena := { arena with bytes := arena.bytes ++ part }

@[simp] theorem bytes_extend (arena : Arena) (part : Bytes) :
    (arena.extend part).bytes = arena.bytes ++ part := rfl

@[simp] theorem position_extend (arena : Arena) (part : Bytes) :
    (arena.extend part).position = arena.position + part.size := by
  simp [position]

theorem remaining_extend (arena : Arena) (part : Bytes) :
    (arena.extend part).remaining = arena.remaining - part.size := by
  simp only [remaining, extend, Array.size_append, Nat.sub_sub, Nat.add_assoc]

@[simp] theorem extend_empty (arena : Arena) : arena.extend #[] = arena := by
  simp [extend]

@[simp] theorem extend_extend (arena : Arena) (first second : Bytes) :
    (arena.extend first).extend second = arena.extend (first ++ second) := by
  simp [extend, Array.append_assoc]

/-- **What comes of asking for room**: an arena that is marked refuses, one that has room answers,
    and one that has not is marked. -/
theorem ensure_cases (requested : Nat) (arena : Arena) :
    (arena.failed = true ∧ ensure requested arena = .error .arenaFailed arena) ∨
    (arena.failed = false ∧ requested ≤ arena.remaining ∧ ensure requested arena = .ok () arena) ∨
    (arena.failed = false ∧ arena.remaining < requested ∧
      ensure requested arena = .error (.arenaExhausted requested arena.remaining) { arena with
        failed := true }) := by
  unfold ensure
  cases hfailed : arena.failed with
  | true => exact .inl ⟨rfl, if_pos rfl⟩
  | false =>
    rw [if_neg Bool.false_ne_true]
    by_cases hroom : arena.remaining < requested
    · exact .inr (.inr ⟨rfl, hroom, if_pos hroom⟩)
    · exact .inr (.inl ⟨rfl, Nat.le_of_not_lt hroom, if_neg hroom⟩)

theorem ensure_ok {requested : Nat} {arena after : Arena}
    (h : ensure requested arena = .ok () after) :
    requested ≤ arena.remaining ∧ after = arena := by
  rcases ensure_cases requested arena with ⟨-, hensure⟩ | ⟨-, hroom, hensure⟩ | ⟨-, -, hensure⟩ <;>
    cases hensure.symm.trans h
  exact ⟨hroom, rfl⟩

/-- Asking for room preserves what does not depend on the mark. -/
theorem preserves_ensure {holds : Arena → Prop}
    (h : ∀ arena failed, holds arena → holds { arena with failed }) (requested : Nat) :
    Preserves holds (ensure requested) := by
  intro arena harena
  rcases ensure_cases requested arena with ⟨-, hensure⟩ | ⟨-, -, hensure⟩ | ⟨-, -, hensure⟩ <;>
    rw [hensure]
  · exact harena
  · exact harena
  · exact h arena true harena

/-- **Bytes that are written stand at the end, from the offset answered on.** -/
theorem write_ok {data : Bytes} {arena after : Arena} {offset : Nat}
    (h : write data arena = .ok offset after) :
    offset = arena.position ∧ after = arena.extend data := by
  obtain ⟨⟨⟩, middle, hensure, happend⟩ := bind_ok h
  obtain ⟨-, rfl⟩ := ensure_ok hensure
  cases happend
  exact ⟨rfl, rfl⟩

/-- A slot that is carved off leaves the bytes alone. -/
theorem reserveTail_ok {size place : Nat} {arena after : Arena}
    (h : reserveTail size arena = .ok place after) :
    size ≤ arena.remaining ∧ after = { arena with tail := arena.tail + size } := by
  obtain ⟨_, middle, hensure, htail⟩ := bind_ok h
  obtain ⟨hroom, rfl⟩ := ensure_ok hensure
  cases htail
  exact ⟨hroom, rfl⟩

theorem writeU32_ok {v : UInt32} {arena after : Arena} {offset : Nat}
    (h : writeU32 v arena = .ok offset after) :
    offset = arena.position ∧ after = arena.extend (ofU32 v) :=
  write_ok h

/-! ## 2. Actions that append -/

/-- If the action ends well, it has put `part` at the end and changed nothing else. -/
def Appends (action : EStateM ε Arena α) (part : Bytes) : Prop :=
  ∀ ⦃arena after : Arena⦄ ⦃a : α⦄, action arena = .ok a after → after = arena.extend part

theorem appends_write (data : Bytes) : Appends (write data) data := fun _ _ _ h => (write_ok h).2

theorem appends_pure (a : α) : Appends (pure a : EStateM ε Arena α) #[] := by
  intro arena after a' h
  obtain ⟨-, rfl⟩ := pure_ok h
  rw [extend_empty]

theorem Appends.bind {x : EStateM ε Arena α} {f : α → EStateM ε Arena β} {first second : Bytes}
    (hx : Appends x first) (hf : ∀ a, Appends (f a) second) :
    Appends (x >>= f) (first ++ second) := by
  intro arena after b h
  obtain ⟨a, middle, hxa, hfa⟩ := bind_ok h
  rw [hf a hfa, hx hxa, extend_extend]

/-- A chain whose last link writes nothing. -/
theorem Appends.bind_pure {x : EStateM ε Arena α} {f : α → β} {part : Bytes} (hx : Appends x part) :
    Appends (x >>= fun a => pure (f a)) part := by
  have := hx.bind (f := fun a => pure (f a)) fun a => appends_pure (f a)
  rwa [Array.append_empty] at this

/-- Zero bytes up to the next boundary. -/
theorem align_ok {arena after : Arena} (h : align arena = .ok () after) :
    after = arena.extend (zeros (paddingAfter arena.position)) := by
  obtain ⟨_, _, hget, hrest⟩ := bind_ok h
  cases hget
  by_cases hpos : 0 < paddingAfter arena.position
  · simp only [hpos, if_true] at hrest
    obtain ⟨_, _, hwrite, hdone⟩ := bind_ok hrest
    obtain ⟨-, rfl⟩ := pure_ok hdone
    exact (write_ok hwrite).2
  · simp only [hpos, if_false] at hrest
    obtain ⟨-, rfl⟩ := pure_ok hrest
    have hnone : paddingAfter after.position = 0 := by omega
    rw [hnone, show zeros 0 = #[] from rfl, extend_empty]

/-- **Behind a base that ends at a boundary, alignment depends on the bytes since then alone.** -/
theorem align_since {arena after : Arena} {base part : Bytes}
    (hbase : base.size % dataAlignment = 0) (hbytes : arena.bytes = base ++ part)
    (h : align arena = .ok () after) :
    after = arena.extend (zeros (paddingAfter part.size)) := by
  rw [align_ok h, position, hbytes, Array.size_append, paddingAfter_add hbase]

/-- **What comes of writing a word over bytes**: the process stops where the end of the word is no
    address, the word is refused where there are no four bytes, and else it is put in their
    place. -/
theorem patchU32_cases (pos : Nat) (value : UInt32) (arena : Arena) :
    (addressSpace ≤ pos + 4 ∧ patchU32 pos value arena = .error (.halt .overflow) arena) ∨
    (pos + 4 < addressSpace ∧ arena.position < pos + 4 ∧
      patchU32 pos value arena = .error (.error (.corrupt (.patchPastEnd pos))) arena) ∨
    (pos + 4 < addressSpace ∧ pos + 4 ≤ arena.position ∧
      patchU32 pos value arena =
        .ok () { arena with bytes := arena.bytes.overwrite pos (ofU32 value) }) := by
  by_cases hspace : addressSpace ≤ pos + 4
  · exact .inl ⟨hspace, if_pos hspace⟩
  by_cases hend : arena.bytes.size < pos + 4
  · exact .inr (.inl ⟨Nat.lt_of_not_le hspace, hend, (if_neg hspace).trans (if_pos hend)⟩)
  · exact .inr (.inr ⟨Nat.lt_of_not_le hspace, Nat.le_of_not_lt hend,
      (if_neg hspace).trans (if_neg hend)⟩)

/-- A word written over four bytes that were written before. -/
theorem patchU32_ok {pos : Nat} {value : UInt32} {arena after : Arena} {u : Unit}
    (h : patchU32 pos value arena = .ok u after) :
    after = { arena with bytes := arena.bytes.overwrite pos (ofU32 value) } := by
  rcases patchU32_cases pos value arena with ⟨-, hpatch⟩ | ⟨-, -, hpatch⟩ | ⟨-, -, hpatch⟩ <;>
    cases hpatch.symm.trans h
  rfl

/-! ## 3. Writers and their readers -/

/-- If the writer ends well, it has put `part` at the end, and the reader reads it back as `b`. -/
def Carries (writer : EStateM ε Arena α) (part : Bytes) (reader : EStateM φ Cursor β)
    (b : β) : Prop :=
  ∀ ⦃arena after : Arena⦄ ⦃a : α⦄, writer arena = .ok a after →
    after = arena.extend part ∧ Spells part reader b

theorem Carries.appends {writer : EStateM ε Arena α} {part : Bytes} {reader : EStateM φ Cursor β}
    {b : β} (h : Carries writer part reader b) : Appends writer part := fun _ _ _ hw => (h hw).1

theorem carries_of_spells {writer : EStateM ε Arena α} {part : Bytes} {reader : EStateM φ Cursor β}
    {b : β} (hw : Appends writer part) (hr : Spells part reader b) : Carries writer part reader b :=
  fun _ _ _ h => ⟨hw h, hr⟩

theorem carries_pure (a : α) (b : β) :
    Carries (pure a : EStateM ε Arena α) #[] (pure b : EStateM φ Cursor β) b :=
  carries_of_spells (appends_pure a) (spells_pure b)

/-- **Writers and readers that match link by link match as chains.** -/
theorem Carries.bind {x : EStateM ε Arena α} {f : α → EStateM ε Arena β} {y : EStateM φ Cursor γ}
    {g : γ → EStateM φ Cursor δ} {first second : Bytes} {c : γ} {d : δ} (hx : Carries x first y c)
    (hf : ∀ a, Carries (f a) second (g c) d) : Carries (x >>= f) (first ++ second) (y >>= g) d := by
  intro arena after b h
  obtain ⟨a, middle, hxa, hfa⟩ := bind_ok h
  obtain ⟨rfl, hfirst⟩ := hx hxa
  obtain ⟨rfl, hsecond⟩ := hf a hfa
  exact ⟨extend_extend .., hfirst.bind hsecond⟩

/-- A reader whose last link reads nothing. -/
theorem Carries.map_read {writer : EStateM ε Arena α} {part : Bytes} {reader : EStateM φ Cursor β}
    {f : β → γ} {b : β} (h : Carries writer part reader b) :
    Carries writer part (reader >>= fun b => pure (f b)) (f b) :=
  fun _ _ _ hw => ⟨(h hw).1, (h hw).2.bind_pure⟩

/-- A writer whose last link writes nothing. -/
theorem Carries.map_write {writer : EStateM ε Arena α} {part : Bytes} {reader : EStateM φ Cursor γ}
    {f : α → β} {c : γ} (h : Carries writer part reader c) :
    Carries (writer >>= fun a => pure (f a)) part reader c := by
  intro arena after b hw
  obtain ⟨a, middle, hwa, hpure⟩ := bind_ok hw
  obtain ⟨-, rfl⟩ := pure_ok hpure
  exact h hwa

theorem carries_writeU8 (v : UInt8) : Carries (writeU8 v) #[v] readU8 v :=
  carries_of_spells (appends_write _) (spells_readU8 v)

theorem carries_writeU32 (v : UInt32) : Carries (writeU32 v) (ofU32 v) readU32 v :=
  carries_of_spells (appends_write _) (spells_readU32 v)

theorem carries_writeI32 (v : Int32) : Carries (writeI32 v) (ofU32 v.toUInt32) readI32 v :=
  carries_of_spells (appends_write _) (spells_readI32 v)

/-- The bytes of a text with its length before it. -/
def stringBytes (text : String) : Bytes :=
  ofU32 (UInt32.ofNat (ofString text).size) ++ ofString text

/-- **A text that is written is read back.** -/
theorem carries_writeString (text : String) :
    Carries (writeString text) (stringBytes text) readString text := by
  intro arena after a h
  obtain ⟨hsize, hrest⟩ := refusal_eq_ok.1 h
  have happends : Appends (do let offset ← writeU32 (UInt32.ofNat (ofString text).size)
                              let _ ← write (ofString text)
                              pure offset : Writing Nat) (stringBytes text) :=
    (appends_write _).bind fun _ => (appends_write (ofString text)).bind_pure
  exact ⟨happends hrest, spells_readString (Nat.not_le.1 hsize)⟩

/-- A name that is written has no nul, and stands at the offset answered with one behind it. -/
theorem writeCString_ok {text : String} {arena after : Arena} {offset size : Nat}
    (h : writeCString text arena = .ok (offset, size) after) :
    (0 : UInt8) ∉ ofString text ∧ offset = arena.position ∧ size = (ofString text).size + 1 ∧
      after = arena.extend ((ofString text).push 0) := by
  obtain ⟨hnul, hrest⟩ := refusal_eq_ok.1 h
  obtain ⟨_, _, hwrite, hpure⟩ := bind_ok hrest
  obtain ⟨hpair, rfl⟩ := pure_ok hpure
  cases hpair
  obtain ⟨hoffset, hafter⟩ := write_ok hwrite
  refine ⟨?_, hoffset, rfl, hafter⟩
  simpa using hnul

/-- Things written one behind the other, and what is known of each that was written. -/
theorem forM_ok {item : α → EStateM ε Arena PUnit} {encode : α → Bytes} {fact : α → Prop}
    (h : ∀ ⦃a arena after u⦄, item a arena = .ok u after → fact a ∧ after = arena.extend (encode a))
    {items : List α} {arena after : Arena} {u : PUnit}
    (hrun : items.forM item arena = .ok u after) :
    (∀ a ∈ items, fact a) ∧ after = arena.extend (join (items.map encode)) := by
  induction items generalizing arena with
  | nil =>
    obtain ⟨-, rfl⟩ := pure_ok hrun
    exact ⟨by simp, by simp⟩
  | cons a items ih =>
    obtain ⟨_, middle, hitem, hrest⟩ := bind_ok (f := fun _ => items.forM item) hrun
    obtain ⟨hfact, rfl⟩ := h hitem
    obtain ⟨hfacts, rfl⟩ := ih hrest
    exact ⟨List.forall_mem_cons.2 ⟨hfact, hfacts⟩, by simp⟩

/-! ## 4. What stays -/

/-- A property of arenas that stays whatever is put at the end, and whatever is written over bytes
    from `edge` on: every action that writes preserves it. -/
structure Outlasts (holds : Arena → Prop) (edge : Nat) : Prop where
  write : ∀ data, Preserves holds (write data)
  patchU32 : ∀ ⦃pos⦄ value, edge ≤ pos → Preserves holds (patchU32 pos value)
  truncate : ∀ ⦃arena pos⦄, holds arena → edge ≤ pos → holds (arena.truncate pos)
  edge_le : ∀ ⦃arena⦄, holds arena → edge ≤ arena.position

section Outlasts

variable {holds : Arena → Prop} {edge : Nat} (h : Outlasts holds edge)

include h

theorem Outlasts.align : Preserves holds align :=
  preserves_get.bind fun _ => preserves_ite ((h.write _).bind fun _ => preserves_pure _)
    (preserves_pure _)

theorem Outlasts.writeString (text : String) : Preserves holds (writeString text) :=
  Preserves.unless ((h.write _).bind fun _ => (h.write _).bind fun _ => preserves_pure _)

theorem Outlasts.writeCString (text : String) : Preserves holds (writeCString text) :=
  Preserves.unless ((h.write _).bind fun _ => preserves_pure _)

end Outlasts

/-- Whatever the outcome, an arena that starts with `base` starts with it afterwards. -/
abbrev Keeps (base : Bytes) (action : EStateM ε Arena α) : Prop :=
  Preserves (fun arena : Arena => PartAt arena.bytes 0 base) action

variable {base : Bytes}

/-- **Bytes behind a base leave the base alone.** -/
theorem keeps_write (data : Bytes) : Keeps base (write data) :=
  (preserves_ensure (fun _ _ h => h) _).bind fun _ _ h => h.append_right data

/-- What is written over bytes preserves what putting the word there does. -/
theorem preserves_patchU32 {holds : Arena → Prop} {pos : Nat} {value : UInt32}
    (h : ∀ arena, holds arena → pos + 4 ≤ arena.position →
      holds { arena with bytes := arena.bytes.overwrite pos (ofU32 value) }) :
    Preserves holds (patchU32 pos value) := by
  intro arena harena
  rcases patchU32_cases pos value arena with ⟨-, hpatch⟩ | ⟨-, -, hpatch⟩ | ⟨-, hend, hpatch⟩ <;>
    rw [hpatch]
  · exact harena
  · exact harena
  · exact h arena harena hend

/-- **A word written over bytes behind a base leaves the base alone.** -/
theorem keeps_patchU32 {pos : Nat} {value : UInt32} (hpos : base.size ≤ pos) :
    Keeps base (patchU32 pos value) := by
  refine preserves_patchU32 fun arena h _ => ?_
  obtain ⟨before, rest, hbytes, hzero⟩ := h
  have hempty : before = #[] := Array.eq_empty_of_size_eq_zero hzero
  subst hempty
  have hfront : arena.bytes.extract 0 pos = base ++ rest.extract 0 (pos - base.size) := by
    rw [hbytes, Array.empty_append, Array.extract_append, Array.extract_eq_self_of_le hpos,
      Nat.zero_sub]
  show PartAt (arena.bytes.overwrite pos (ofU32 value)) 0 base
  rw [overwrite, hfront, Array.append_assoc, Array.append_assoc]
  exact ⟨#[], _, by rw [Array.empty_append], rfl⟩

/-- Taking bytes back leaves those before them. -/
theorem partAt_truncate {arena : Arena} {pos : Nat} (h : PartAt arena.bytes 0 base)
    (hle : base.size ≤ pos) :
    PartAt (arena.truncate pos).bytes 0 base :=
  h.take hle

/-- **What an arena starts with outlasts all writing behind it.** -/
theorem outlasts_base : Outlasts (fun arena : Arena => PartAt arena.bytes 0 base) base.size where
  write := keeps_write
  patchU32 _ _ hpos := keeps_patchU32 hpos
  truncate _ _ h hle := partAt_truncate h hle
  edge_le _ h := by
    have := h.le
    rwa [Nat.zero_add] at this

end CodeVault.Arena
