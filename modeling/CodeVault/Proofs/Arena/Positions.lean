import CodeVault.Proofs.Arena.Append
import CodeVault.Proofs.Cursor.Yields

/-!
# Positions that callers give

What comes of reading and writing at a position and for a length that nobody has checked.

* a range that lies inside is answered, and every other one is refused for what the bytes hold,
  whether it is read at once (`readAt_total`) or through a cursor (`runAt_get_total`, `seek_total`,
  `readBytes_total`), which then stays where it is;
* a word is written over bytes in the same way, but only as long as the end of the word is an
  address at all: of the last four positions of the address space the process stops
  (`patchU32_total`);
* **so no position and no length stops a process that reads, and exactly these four stop one that
  writes** (`positions_total`).
-/

namespace CodeVault

open Arena Bytes Cursor

/-! ## 1. Reading -/

/-- **A range of bytes is answered if it lies inside, and refused otherwise.** -/
theorem readAt_total (data : Bytes) (pos size : Nat) :
    if pos + size ≤ data.size then ∃ part, data.readAt pos size = .ok part ∧ PartAt data pos part ∧
      part.size = size
    else ∃ cause, data.readAt pos size = .error (.corrupt cause) := by
  unfold readAt
  by_cases hinside : pos + size ≤ data.size
  · have hslice : data.slice? pos size = some (data.extract pos (pos + size)) := if_pos hinside
    rw [if_pos hinside, hslice]
    exact ⟨_, rfl, partAt_of_slice? hslice, size_of_slice? hslice⟩
  · have hslice : data.slice? pos size = none := if_neg hinside
    rw [if_neg hinside, hslice]
    exact ⟨_, rfl⟩

/-- **A cursor goes where there are bytes, or to their end, and else stays where it is.** -/
theorem seek_total (cursor : Cursor) (pos : Nat) :
    if h : pos ≤ cursor.data.size then seek pos cursor = .ok () ⟨cursor.data, pos, h⟩
    else ∃ cause, seek pos cursor = .error (.corrupt cause) cursor := by
  by_cases hinside : pos ≤ cursor.data.size
  · rw [dif_pos hinside]
    exact dif_pos hinside
  · rw [dif_neg hinside]
    exact ⟨_, dif_neg hinside⟩

/-- Nothing is run from a place behind the end of the bytes. -/
theorem runAt_outside {α : Type} {data : Bytes} {pos : Nat} (h : ¬pos ≤ data.size)
    (action : Reading α) :
    ∃ cause, runAt data pos action = .error (.corrupt cause) := by
  have hseek : seek pos (ofBytes data) =
      .error (.corrupt (.seekPastEnd pos data.size)) (ofBytes data) := dif_neg h
  exact ⟨_, by rw [runAt, bind_of_error hseek]⟩

/-- **There is a cursor at each place of bytes, and at their end.** -/
theorem runAt_get_total (data : Bytes) (pos : Nat) :
    if h : pos ≤ data.size then runAt data pos get = .ok ⟨data, pos, h⟩
    else ∃ cause, runAt data pos get = .error (.corrupt cause) := by
  by_cases hinside : pos ≤ data.size
  · rw [dif_pos hinside]
    exact runAt_eq hinside
  · rw [dif_neg hinside]
    exact runAt_outside hinside get

/-- **The next bytes are read if there are as many, and else the cursor stays where it is.** -/
theorem readBytes_total (cursor : Cursor) (size : Nat) :
    if h : cursor.pos + size ≤ cursor.data.size then
      ∃ part, readBytes size cursor = .ok part ⟨cursor.data, cursor.pos + size, h⟩ ∧
        PartAt cursor.data cursor.pos part ∧ part.size = size
    else ∃ cause, readBytes size cursor = .error (.corrupt cause) cursor := by
  by_cases hinside : cursor.pos + size ≤ cursor.data.size
  · have hslice : cursor.data.slice? cursor.pos size =
        some (cursor.data.extract cursor.pos (cursor.pos + size)) :=
      if_pos hinside
    rw [dif_pos hinside]
    exact ⟨_, dif_pos hinside, partAt_of_slice? hslice, size_of_slice? hslice⟩
  · rw [dif_neg hinside]
    exact ⟨_, dif_neg hinside⟩

/-- **A cursor that goes to a place reads there what is read at once**, or neither is answered. -/
theorem runAt_readBytes_toOption (data : Bytes) (pos size : Nat) :
    (runAt data pos (readBytes size)).toOption = (data.readAt pos size).toOption := by
  by_cases hinside : pos + size ≤ data.size
  · have hreads : Reads (readBytes size) data pos (data.extract pos (pos + size)) (pos + size) :=
      fun _ => ⟨hinside, dif_pos hinside⟩
    have hslice : data.slice? pos size = some (data.extract pos (pos + size)) := if_pos hinside
    rw [runAt_of_reads (Nat.le_trans (Nat.le_add_right _ _) hinside) hreads, readAt, hslice]
  · have hat := readAt_total data pos size
    rw [if_neg hinside] at hat
    obtain ⟨cause, hat⟩ := hat
    obtain ⟨other, hread⟩ : ∃ other, runAt data pos (readBytes size) = .error (.corrupt other) := by
      by_cases hstart : pos ≤ data.size
      · have hbytes := readBytes_total ⟨data, pos, hstart⟩ size
        rw [dif_neg hinside] at hbytes
        obtain ⟨other, hbytes⟩ := hbytes
        exact ⟨other, by rw [runAt_eq hstart, hbytes]⟩
      · exact runAt_outside hstart (readBytes size)
    rw [hat, hread]
    rfl

/-! ## 2. Writing over bytes -/

/-- Bytes with a word over four of them: the word stands in its place, and beside it is what was
    there. -/
structure Patched (before after : Bytes) (pos : Nat) (value : UInt32) : Prop where
  size_eq : after.size = before.size
  word : PartAt after pos (ofU32 value)
  others : ∀ i, i < pos ∨ pos + 4 ≤ i → after[i]? = before[i]?

/-- **A word is put over four bytes that are there, and refused where they are not**; where its end
    is no address the process stops. -/
theorem patchU32_total (arena : Arena) (pos : Nat) (value : UInt32) :
    if addressSpace ≤ pos + 4 then patchU32 pos value arena = .error (.halt .overflow) arena
    else if pos + 4 ≤ arena.position then
      ∃ bytes, patchU32 pos value arena = .ok () { arena with bytes } ∧
        Patched arena.bytes bytes pos value
    else ∃ cause, patchU32 pos value arena = .error (.error (.corrupt cause)) arena := by
  rcases patchU32_cases pos value arena with
    ⟨hspace, hpatch⟩ | ⟨hspace, hend, hpatch⟩ | ⟨hspace, hend, hpatch⟩
  · rw [if_pos hspace]
    exact hpatch
  · rw [if_neg (Nat.not_le.2 hspace), if_neg (Nat.not_le.2 hend)]
    exact ⟨_, hpatch⟩
  · have hroom : pos + (ofU32 value).size ≤ arena.bytes.size := by rwa [size_ofU32]
    rw [if_neg (Nat.not_le.2 hspace), if_pos hend]
    refine ⟨_, hpatch, size_overwrite hroom,
      partAt_overwrite (Nat.le_trans (Nat.le_add_right _ _) hroom), ?_⟩
    exact fun i hi => getElem?_overwrite_outside hroom (by rwa [size_ofU32])

/-! ## 3. All positions -/

/-- **What comes of positions and lengths that callers give, whichever they are.** A range is read,
    at once or by a cursor, exactly if it lies inside the bytes, and is the same in both ways; a
    cursor goes exactly to the places in the bytes and to their end. What is asked for besides is
    refused for what the bytes hold, and the cursor stays where it is. A word is put over bytes
    exactly if four were written there, and is refused otherwise with the arena as it was, unless
    its end is behind the last address: then, and only then, the process stops, with the arena as it
    was too. -/
theorem positions_total (data : Bytes) (cursor : Cursor) (arena : Arena) (pos size : Nat)
    (value : UInt32) :
    (if pos + size ≤ data.size then ∃ part, data.readAt pos size = .ok part ∧ PartAt data pos part ∧
      part.size = size
      else ∃ cause, data.readAt pos size = .error (.corrupt cause)) ∧
    (if h : pos ≤ data.size then runAt data pos get = .ok ⟨data, pos, h⟩
      else ∃ cause, runAt data pos get = .error (.corrupt cause)) ∧
    (if h : pos ≤ cursor.data.size then seek pos cursor = .ok () ⟨cursor.data, pos, h⟩
      else ∃ cause, seek pos cursor = .error (.corrupt cause) cursor) ∧
    (if h : cursor.pos + size ≤ cursor.data.size then
        ∃ part, readBytes size cursor = .ok part ⟨cursor.data, cursor.pos + size, h⟩ ∧
          PartAt cursor.data cursor.pos part ∧ part.size = size
      else ∃ cause, readBytes size cursor = .error (.corrupt cause) cursor) ∧
    (runAt data pos (readBytes size)).toOption = (data.readAt pos size).toOption ∧
    (if addressSpace ≤ pos + 4 then patchU32 pos value arena = .error (.halt .overflow) arena
      else if pos + 4 ≤ arena.position then
        ∃ bytes, patchU32 pos value arena = .ok () { arena with bytes } ∧
          Patched arena.bytes bytes pos value
      else ∃ cause, patchU32 pos value arena = .error (.error (.corrupt cause)) arena) :=
  ⟨readAt_total data pos size, runAt_get_total data pos, seek_total cursor pos,
    readBytes_total cursor size, runAt_readBytes_toOption data pos size,
    patchU32_total arena pos value⟩

end CodeVault
