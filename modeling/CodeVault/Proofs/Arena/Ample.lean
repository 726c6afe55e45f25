import CodeVault.Proofs.Arena.Append

/-!
# Writing where there is room

* `Writes action part`: in every arena in which nothing was refused so far and which has room for
  `part`, the action ends well and has put it at the end. This is the converse of `Appends`, and
  composes alike (`Writes.bind`);
* an arena in which nothing went wrong and no slot was carved off is its capacity and the bytes
  written (`filled`), and `Puts action part` says the same of such arenas, where an action may also
  ask where it is;
* **behind bytes that end at a boundary, things and the zeros behind them are padded bytes**
  (`align_filled`).
-/

namespace CodeVault.Arena

open Bytes

variable {ε α β : Type} {arena : Arena} {capacity : Nat} {before part : Bytes}

/-! ## 1. Any arena with room -/

/-- Nothing was refused so far, and there is room for so many bytes. -/
structure HasRoom (size : Nat) (arena : Arena) : Prop where
  sound : arena.failed = false
  room : size ≤ arena.remaining

/-- There is room for a first part where there is room for more, and behind it for the rest. -/
theorem HasRoom.extend {size : Nat} (h : arena.HasRoom (part.size + size)) :
    arena.HasRoom part.size ∧ (arena.extend part).HasRoom size := by
  have hroom := h.room
  exact ⟨⟨h.sound, by omega⟩, ⟨h.sound, by rw [remaining_extend]; omega⟩⟩

/-- Wherever there is room for `part`, the action ends well and has put it at the end. -/
def Writes (action : EStateM ε Arena α) (part : Bytes) : Prop :=
  ∀ ⦃arena : Arena⦄, arena.HasRoom part.size → ∃ a, action arena = .ok a (arena.extend part)

theorem ensure_of_room {requested : Nat} (h : arena.HasRoom requested) :
    ensure requested arena = .ok () arena := by
  simp only [ensure, h.sound, Nat.not_lt.2 h.room, if_false, Bool.false_eq_true]

/-- **Bytes for which there is room are written.** -/
theorem write_of_room (h : arena.HasRoom part.size) :
    write part arena = .ok arena.position (arena.extend part) :=
  bind_of_ok (ensure_of_room h)

theorem writes_write (data : Bytes) :
    Writes (write data) data := fun arena h => ⟨arena.position, write_of_room h⟩

theorem writes_pure (a : α) : Writes (pure a : EStateM ε Arena α) #[] :=
  fun arena _ => ⟨a, by rw [extend_empty]; rfl⟩

/-- **Actions one after the other write their parts one behind the other.** -/
theorem Writes.bind {x : EStateM ε Arena α} {f : α → EStateM ε Arena β} {first second : Bytes}
    (hx : Writes x first) (hf : ∀ a, Writes (f a) second) : Writes (x >>= f) (first ++ second) := by
  intro arena h
  rw [Array.size_append] at h
  obtain ⟨hfirst, hsecond⟩ := h.extend
  obtain ⟨a, hxa⟩ := hx hfirst
  obtain ⟨b, hfb⟩ := hf a hsecond
  exact ⟨b, by rw [bind_of_ok hxa, hfb, extend_extend]⟩

/-- A chain whose last link writes nothing. -/
theorem Writes.bind_pure {x : EStateM ε Arena α} {f : α → β} (hx : Writes x part) :
    Writes (x >>= fun a => pure (f a)) part := by
  have := hx.bind (f := fun a => pure (f a)) fun a => writes_pure (f a)
  rwa [Array.append_empty] at this

/-- **A text whose length fits a word is written.** -/
theorem writes_writeString {text : String} (h : (ofString text).size < wordSpace) :
    Writes (writeString text) (stringBytes text) := by
  have hlength : ¬wordSpace ≤ (ofString text).size := Nat.not_le.2 h
  unfold writeString
  simp only [hlength, if_false]
  exact (writes_write _).bind fun _ => (writes_write (ofString text)).bind_pure

/-- **A name without a nul is written**, and a nul behind it. -/
theorem writes_writeCString {text : String} (h : (0 : UInt8) ∉ ofString text) :
    Writes (writeCString text) ((ofString text).push 0) := by
  have hnul : ¬(ofString text).contains 0 = true := by simpa using h
  unfold writeCString
  simp only [hnul, if_false, Bool.false_eq_true]
  exact (writes_write _).bind_pure

/-! ## 2. Arenas in which nothing else was done -/

/-- An arena of a capacity in which these bytes were written, and nothing else was done. -/
def filled (capacity : Nat) (bytes : Bytes) : Arena := ⟨bytes, capacity, 0, false⟩

@[simp] theorem position_filled : (filled capacity before).position = before.size := rfl

/-- Wherever there is room for `part`, the action ends well and has put it at the end. -/
def Puts (action : EStateM ε Arena α) (part : Bytes) : Prop :=
  ∀ ⦃capacity : Nat⦄ ⦃before : Bytes⦄, before.size + part.size ≤ capacity →
    ∃ a, action (filled capacity before) = .ok a (filled capacity (before ++ part))

theorem hasRoom_filled {size : Nat} (hroom : before.size + size ≤ capacity) :
    (filled capacity before).HasRoom size := by
  refine ⟨rfl, ?_⟩
  show size ≤ capacity - 0 - before.size
  omega

/-- What is written wherever there is room is written here. -/
theorem Writes.puts {action : EStateM ε Arena α} (h : Writes action part) : Puts action part :=
  fun _ _ hroom => h (hasRoom_filled hroom)

theorem ensure_filled {requested : Nat} (hroom : before.size + requested ≤ capacity) :
    ensure requested (filled capacity before) = .ok () (filled capacity before) :=
  ensure_of_room (hasRoom_filled hroom)

/-- **Bytes for which there is room are written.** -/
theorem write_filled (hroom : before.size + part.size ≤ capacity) :
    write part (filled capacity before) = .ok before.size (filled capacity (before ++ part)) :=
  write_of_room (hasRoom_filled hroom)

theorem puts_write (data : Bytes) : Puts (write data) data := (writes_write data).puts

theorem puts_pure (a : α) : Puts (pure a : EStateM ε Arena α) #[] := (writes_pure a).puts

/-- **Actions one after the other put their parts one behind the other.** -/
theorem Puts.bind {x : EStateM ε Arena α} {f : α → EStateM ε Arena β} {first second : Bytes}
    (hx : Puts x first) (hf : ∀ a, Puts (f a) second) : Puts (x >>= f) (first ++ second) := by
  intro capacity before hroom
  rw [Array.size_append] at hroom
  have henough : before.size + first.size ≤ capacity := by omega
  obtain ⟨a, hfirst⟩ := hx henough
  have hleft : (before ++ first).size + second.size ≤ capacity := by
    rw [Array.size_append]
    omega
  obtain ⟨b, hsecond⟩ := hf a hleft
  exact ⟨b, by rw [bind_of_ok hfirst, hsecond, Array.append_assoc]⟩

/-- A chain whose last link writes nothing. -/
theorem Puts.bind_pure {x : EStateM ε Arena α} {f : α → β} (hx : Puts x part) :
    Puts (x >>= fun a => pure (f a)) part := by
  have := hx.bind (f := fun a => pure (f a)) fun a => puts_pure (f a)
  rwa [Array.append_empty] at this

/-- Things one behind the other. -/
theorem puts_forM {item : α → EStateM ε Arena PUnit} {encode : α → Bytes}
    (h : ∀ a, Puts (item a) (encode a)) (things : List α) :
    Puts (things.forM item) (join (things.map encode)) := by
  induction things with
  | nil => exact puts_pure _
  | cons a things ih => exact (h a).bind (f := fun _ => things.forM item) fun _ => ih

/-- **Zeros up to the next boundary**, for which there is room. -/
theorem align_filled (hbefore : before.size % dataAlignment = 0)
    (hroom : before.size + (Container.padded part).size ≤ capacity) :
    align (filled capacity (before ++ part)) =
      .ok () (filled capacity (before ++ Container.padded part)) := by
  have hpadding : paddingAfter (filled capacity (before ++ part)).position =
      paddingAfter part.size := by
    rw [position_filled, Array.size_append, paddingAfter_add hbefore]
  have hall : before ++ Container.padded part = before ++ part ++ zeros (paddingAfter part.size) :=
    Array.append_assoc.symm
  have hfits : (before ++ part).size + (zeros (paddingAfter part.size)).size ≤ capacity := by
    rw [← Array.size_append, ← hall, Array.size_append]
    exact hroom
  show (if 0 < paddingAfter (filled capacity (before ++ part)).position then
      write (zeros (paddingAfter (filled capacity (before ++ part)).position)) >>= fun _ => pure ()
    else pure () : Writing Unit) (filled capacity (before ++ part)) = _
  rw [hpadding, hall]
  by_cases hpos : 0 < paddingAfter part.size
  · rw [if_pos hpos, bind_of_ok (write_filled hfits)]
    rfl
  · rw [if_neg hpos, Nat.eq_zero_of_not_pos hpos, show zeros 0 = #[] from rfl, Array.append_empty]
    rfl

/-- **Zero bytes for which there is room, in the arena and in the process.** -/
theorem reserve_filled {n : Nat} (hroom : before.size + n ≤ capacity)
    (hmax : before.size + n ≤ maxBytes) :
    reserve n (filled capacity before) = .ok before.size (filled capacity (before ++ zeros n)) := by
  have hensure : (liftM (ensure n) : Encoding Unit) (filled capacity before) =
      .ok () (filled capacity before) :=
    lift_eq_ok.2 (ensure_filled hroom)
  have hhere : (get : Encoding Arena) (filled capacity before) =
      .ok (filled capacity before) (filled capacity before) := rfl
  have hsmall : ¬maxBytes < (filled capacity before).position + n := Nat.not_lt.2 hmax
  rw [reserve, bind_of_ok hensure, bind_of_ok hhere]
  simp only [hsmall, if_false]
  rfl

end CodeVault.Arena
