import CodeVault.Proofs.Cursor.Reads

/-!
# What reading is refused for

* `Refuses causes action`: wherever the action is run, it is refused for such a cause or not at all;
  reading as such is refused only because of what the bytes hold (`IsCorrupt`);
* `Ends action data start finish causes`: in these bytes, of which there are enough, the action
  leads from one place to another, or is refused for such a cause;
* `Stops action data start cause`: in these bytes the action is refused for this cause.
-/

namespace CodeVault

/-- An error because of what bytes hold. -/
def CacheError.IsCorrupt (error : CacheError) : Prop := ∃ cause, error = .corrupt cause

namespace Cursor

open Bytes

variable {ε σ α β : Type}

/-! ## 1. Wherever an action is run -/

/-- Wherever the action is run, it is refused for such a cause or not at all. -/
def Refuses (causes : ε → Prop) (action : EStateM ε σ α) : Prop :=
  ∀ ⦃s t : σ⦄ ⦃e : ε⦄, action s = .error e t → causes e

section Refuses

variable {causes : ε → Prop}

theorem refuses_pure (a : α) : Refuses causes (pure a : EStateM ε σ α) := fun _ _ _ h => nomatch h

theorem refuses_get : Refuses causes (get : EStateM ε σ σ) := fun _ _ _ h => nomatch h

theorem refuses_throw {e : ε} (h : causes e) : Refuses causes (throw e : EStateM ε σ α) := by
  intro s t cause hrun
  cases hrun
  exact h

theorem Refuses.bind {x : EStateM ε σ α} {f : α → EStateM ε σ β} (hx : Refuses causes x)
    (hf : ∀ a, Refuses causes (f a)) : Refuses causes (x >>= f) := by
  intro s t e hrun
  rcases bind_error hrun with hfirst | ⟨a, middle, -, hrest⟩
  · exact hx hfirst
  · exact hf a hrest

theorem refuses_ofOutcome {outcome : Except ε α} (h : ∀ e, outcome = .error e → causes e) :
    Refuses causes (ofOutcome outcome : EStateM ε σ α) := by
  cases outcome with
  | ok a => exact refuses_pure a
  | error e => exact refuses_throw (h e rfl)

/-- A refusal before a chain. -/
theorem Refuses.unless {c : Prop} [Decidable c] {e : ε} {f : α → EStateM ε σ β} {u : α}
    (he : causes e) (hf : Refuses causes (f u)) :
    Refuses causes (if c then (throw e : EStateM ε σ α) >>= f else f u) := by
  intro s t cause hrun
  split at hrun
  · rcases bind_error hrun with hthrow | ⟨_, _, hthrow, -⟩ <;> cases hthrow
    exact he
  · exact hf hrun

theorem refuses_ite {c : Prop} [Decidable c] {x y : EStateM ε σ α} (hx : Refuses causes x)
    (hy : Refuses causes y) : Refuses causes (if c then x else y) := by
  split
  · exact hx
  · exact hy

theorem refuses_forM {item : α → EStateM ε σ PUnit} (h : ∀ a, Refuses causes (item a))
    (items : List α) : Refuses causes (items.forM item) := by
  induction items with
  | nil => exact refuses_pure _
  | cons a items ih => exact (h a).bind (f := fun _ => items.forM item) fun _ => ih

/-- A link that is there only under a condition. -/
theorem refuses_when {c : Prop} [Decidable c] {x : EStateM ε σ α} {f : α → EStateM ε σ β} {u : α}
    (hx : Refuses causes x) (hf : ∀ a, Refuses causes (f a)) :
    Refuses causes (if c then x >>= f else f u) :=
  refuses_ite (hx.bind hf) (hf u)

end Refuses

theorem refuses_corrupt (cause : Corruption) :
    Refuses CacheError.IsCorrupt (corrupt cause : Reading α) :=
  refuses_throw ⟨cause, rfl⟩

theorem refuses_seek (pos : Nat) : Refuses CacheError.IsCorrupt (seek pos) := by
  intro s t e h
  unfold seek at h
  split at h <;> cases h
  exact ⟨_, rfl⟩

theorem refuses_readBytes (n : Nat) : Refuses CacheError.IsCorrupt (readBytes n) := by
  intro s t e h
  unfold readBytes at h
  split at h <;> cases h
  exact ⟨_, rfl⟩

theorem refuses_readU32 : Refuses CacheError.IsCorrupt readU32 :=
  (refuses_readBytes 4).bind fun _ => refuses_pure _

theorem refuses_decodeText (bytes : Bytes) : Refuses CacheError.IsCorrupt (decodeText bytes) := by
  unfold decodeText
  split
  · exact refuses_pure _
  · exact refuses_corrupt _

theorem refuses_readTerminated : Refuses CacheError.IsCorrupt readTerminated := by
  intro s t e h
  unfold readTerminated at h
  split at h <;> cases h
  exact ⟨_, rfl⟩

theorem refuses_readMany {causes : CacheError → Prop} {item : Reading α} (h : Refuses causes item)
    (count : Nat) : Refuses causes (readMany item count) := by
  induction count with
  | zero => exact refuses_pure []
  | succ count ih => exact h.bind fun _ => ih.bind fun _ => refuses_pure _

/-- Running an action from a place on is refused for what the action is, or because there is no such
    place. -/
theorem corrupt_of_runAt {action : Reading α} {data : Bytes} {pos : Nat} {e : CacheError}
    (h : Refuses CacheError.IsCorrupt action) (hrun : runAt data pos action = .error e) :
    e.IsCorrupt := by
  unfold runAt at hrun
  split at hrun
  · cases hrun
  · rename_i herror
    cases hrun
    exact ((refuses_seek pos).bind fun _ => h) herror

/-! ## 2. In bytes of which there are enough -/

/-- In these bytes the action leads from one place to another, or is refused for such a cause. -/
def Ends (action : EStateM ε Cursor α) (data : Bytes) (start finish : Nat)
    (causes : ε → Prop) : Prop :=
  ∀ h : start ≤ data.size,
    (∃ a, ∃ h' : finish ≤ data.size, action ⟨data, start, h⟩ = .ok a ⟨data, finish, h'⟩) ∨
      ∃ e after, action ⟨data, start, h⟩ = .error e after ∧ causes e

section Ends

variable {data : Bytes} {start middle finish : Nat} {causes : ε → Prop}

theorem ends_pure (a : α) : Ends (pure a : EStateM ε Cursor α) data start start causes :=
  fun h => .inl ⟨a, h, rfl⟩

theorem ends_throw {e : ε} (h : causes e) :
    Ends (throw e : EStateM ε Cursor α) data start finish causes :=
  fun _ => .inr ⟨e, _, rfl, h⟩

theorem Ends.bind {x : EStateM ε Cursor α} {f : α → EStateM ε Cursor β}
    (hx : Ends x data start middle causes) (hf : ∀ a, Ends (f a) data middle finish causes) :
    Ends (x >>= f) data start finish causes := by
  intro h
  rcases hx h with ⟨a, h', hrun⟩ | ⟨e, after, hrun, hcause⟩
  · rw [bind_of_ok hrun]
    exact hf a h'
  · exact .inr ⟨e, after, bind_of_error hrun, hcause⟩

/-- A check before the rest. -/
theorem ends_unless {c : Prop} [Decidable c] {e : ε} {f : α → EStateM ε Cursor β} {u : α}
    (hcause : c → causes e) (hf : ¬c → Ends (f u) data start finish causes) :
    Ends (if c then (throw e : EStateM ε Cursor α) >>= f else f u) data start finish causes := by
  by_cases hc : c
  · rw [if_pos hc]
    exact fun _ => .inr ⟨e, _, rfl, hcause hc⟩
  · rw [if_neg hc]
    exact hf hc

theorem Ends.of_reads {action : EStateM ε Cursor α} {a : α} (h : Reads action data start a finish) :
    Ends action data start finish causes :=
  fun hstart => .inl ⟨a, h hstart⟩

/-- A word that is known to be there. -/
theorem reads_readU32 {word : UInt32} (h : PartAt data start (ofU32 word)) :
    Reads readU32 data start word (start + 4) :=
  reads_of_partAt h (by rw [size_ofU32]) (spells_readU32 word)

/-- **The next word, which is there, and what is done with it.** -/
theorem ends_readU32_bind {causes : CacheError → Prop} {f : UInt32 → Reading β}
    (hroom : start + 4 ≤ data.size)
    (hf : ∀ word, PartAt data start (ofU32 word) → Ends (f word) data (start + 4) finish causes) :
    Ends (readU32 >>= f) data start finish causes := by
  obtain ⟨word, hword⟩ := exists_word hroom
  intro h
  obtain ⟨h', hrun⟩ := spells_readU32 word hword h
  rw [bind_of_ok hrun]
  exact hf word hword h'

theorem ends_readU32 {causes : CacheError → Prop} (hroom : start + 4 ≤ data.size) :
    Ends readU32 data start (start + 4) causes := by
  obtain ⟨word, hword⟩ := exists_word hroom
  exact .of_reads (spells_readU32 word hword)

theorem ends_readU64 {causes : CacheError → Prop} (hroom : start + 8 ≤ data.size) :
    Ends readU64 data start (start + 8) causes := by
  intro h
  refine .inl ⟨UInt64.ofNat (toNat (data.extract start (start + 8))), hroom, ?_⟩
  have hbytes : readBytes 8 ⟨data, start, h⟩ =
      .ok (data.extract start (start + 8)) ⟨data, start + 8, hroom⟩ := by
    rw [readBytes, dif_pos hroom]
  exact bind_of_ok hbytes

/-- Things of the same size, of which there are enough. -/
theorem ends_readMany {item : Reading α} {size : Nat} {causes : CacheError → Prop}
    (h : ∀ ⦃pos⦄, pos + size ≤ data.size → Ends item data pos (pos + size) causes) (count : Nat)
    (hroom : start + count * size ≤ data.size) :
    Ends (readMany item count) data start (start + count * size) causes := by
  induction count generalizing start with
  | zero =>
    rw [Nat.zero_mul, Nat.add_zero]
    exact ends_pure []
  | succ count ih =>
    have hsplit : start + (count + 1) * size = start + size + count * size := by
      rw [Nat.succ_mul]
      omega
    rw [hsplit] at hroom ⊢
    exact (h (by omega)).bind fun first => (ih hroom).bind fun rest => ends_pure (first :: rest)

/-- **What ends in enough bytes and has no cause to be refused gives an answer there.** -/
theorem Ends.runAt_ok {action : Reading α} (h : Ends action data start finish fun _ => False)
    (hstart : start ≤ data.size) : ∃ a, runAt data start action = .ok a := by
  rcases h hstart with ⟨a, h', haction⟩ | ⟨_, _, -, hnone⟩
  · exact ⟨a, by rw [runAt_eq hstart, haction]⟩
  · exact hnone.elim

/-- What an action that ends in enough bytes is refused for when it is run there. -/
theorem Ends.cause_of_runAt {causes : CacheError → Prop} {action : Reading α} {e : CacheError}
    (h : Ends action data start finish causes) (hstart : start ≤ data.size)
    (hrun : runAt data start action = .error e) : causes e := by
  rw [runAt_eq hstart] at hrun
  rcases h hstart with ⟨a, h', haction⟩ | ⟨cause, after, haction, hcause⟩
  · rw [haction] at hrun
    cases hrun
  · rw [haction] at hrun
    cases hrun
    exact hcause

/-! ## 3. For one cause -/

/-- In these bytes the action is refused for this cause. -/
def Stops (action : EStateM ε Cursor α) (data : Bytes) (start : Nat) (cause : ε) : Prop :=
  ∀ h : start ≤ data.size, ∃ after, action ⟨data, start, h⟩ = .error cause after

theorem stops_throw (cause : ε) : Stops (throw cause : EStateM ε Cursor α) data start cause :=
  fun _ => ⟨_, rfl⟩

/-- What is read before a refusal, of which it is known that it can be read. -/
theorem Ends.bind_stops {x : EStateM ε Cursor α} {f : α → EStateM ε Cursor β} {cause : ε}
    (hx : Ends x data start middle fun _ => False) (hf : ∀ a, Stops (f a) data middle cause) :
    Stops (x >>= f) data start cause := by
  intro h
  rcases hx h with ⟨a, h', hrun⟩ | ⟨_, _, -, hnone⟩
  · rw [bind_of_ok hrun]
    exact hf a h'
  · exact hnone.elim

/-- What would come behind a refusal is not read. -/
theorem Stops.bind {x : EStateM ε Cursor α} {f : α → EStateM ε Cursor β} {cause : ε}
    (h : Stops x data start cause) : Stops (x >>= f) data start cause := by
  intro hstart
  obtain ⟨after, hrun⟩ := h hstart
  exact ⟨after, bind_of_error hrun⟩

/-- What is read before a refusal, of which it is known what it is. -/
theorem Reads.bind_stops {x : EStateM ε Cursor α} {f : α → EStateM ε Cursor β} {a : α} {cause : ε}
    (hx : Reads x data start a middle) (hf : Stops (f a) data middle cause) :
    Stops (x >>= f) data start cause := by
  intro h
  obtain ⟨h', hrun⟩ := hx h
  rw [bind_of_ok hrun]
  exact hf h'

/-- What an action that is refused comes to when it is run there. -/
theorem Stops.runAt {action : Reading α} {cause : CacheError} (h : Stops action data start cause)
    (hstart : start ≤ data.size) : runAt data start action = .error cause := by
  obtain ⟨after, hrun⟩ := h hstart
  rw [runAt_eq hstart, hrun]

end Ends

end Cursor

end CodeVault
