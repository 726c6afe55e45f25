import CodeVault.Proofs.Cursor.Refusals

/-!
# Reading bytes that were cut short

Where an action ends well, it looked at no byte behind the place that it ended at, but for how many
bytes there are.

* `Cuts causes action`: when bytes in which the action ends well are cut short behind its start, it
  still ends well, at the same place and with the same answer, or it is refused for such a cause;
* **this composes along chains** (`Cuts.bind`) and holds of everything that a cursor reads, where it
  is refused for what the bytes hold; a count may be refused before anything that is counted is read
  (`cuts_readCount`).
-/

namespace CodeVault

/-- An error because of what bytes hold, where the process may stop too. -/
def Fault.IsCorrupt (fault : Fault CacheError) : Prop :=
  ∃ cause : Corruption, fault = .error (.corrupt cause)

namespace Cursor

open Bytes

variable {ε α β : Type} {causes : ε → Prop}

/-! ## 1. Chains -/

/-- When bytes in which the action ends well are cut short, it ends as well in what is left of them,
    or it is refused there for such a cause. -/
def Cuts (causes : ε → Prop) (action : EStateM ε Cursor α) : Prop :=
  ∀ ⦃front rest : Bytes⦄ ⦃start : Nat⦄ ⦃a : α⦄ ⦃after : Cursor⦄ (h : start ≤ front.size)
    (hall : start ≤ (front ++ rest).size), action ⟨front ++ rest, start, hall⟩ = .ok a after →
      (∃ finish, ∃ hfinish : finish ≤ (front ++ rest).size, ∃ h' : finish ≤ front.size,
        after = ⟨front ++ rest, finish, hfinish⟩ ∧
          action ⟨front, start, h⟩ = .ok a ⟨front, finish, h'⟩) ∨
      ∃ e t, action ⟨front, start, h⟩ = .error e t ∧ causes e

theorem cuts_pure (a : α) : Cuts causes (pure a : EStateM ε Cursor α) := by
  intro front rest start b after h hall hrun
  obtain ⟨rfl, rfl⟩ := pure_ok hrun
  exact .inl ⟨start, hall, h, rfl, rfl⟩

theorem cuts_throw (e : ε) : Cuts causes (throw e : EStateM ε Cursor α) :=
  fun _ _ _ _ _ _ _ hrun => nomatch hrun

/-- **A chain may be cut short in any of its links.** -/
theorem Cuts.bind {x : EStateM ε Cursor α} {f : α → EStateM ε Cursor β} (hx : Cuts causes x)
    (hf : ∀ a, Cuts causes (f a)) : Cuts causes (x >>= f) := by
  intro front rest start b after h hall hrun
  obtain ⟨a, middle, hfirst, hrest⟩ := bind_ok hrun
  rcases hx h hall hfirst with ⟨place, hplace, h', rfl, hshort⟩ | ⟨e, t, hshort, hcause⟩
  · rw [bind_of_ok hshort]
    exact hf a h' hplace hrest
  · exact .inr ⟨e, t, bind_of_error hshort, hcause⟩

/-- An action that asks where it is, and nothing else of the cursor. -/
theorem Cuts.bind_pos {f : Cursor → EStateM ε Cursor β}
    (hpos : ∀ cursor other : Cursor, cursor.pos = other.pos → f cursor = f other)
    (hf : ∀ cursor, Cuts causes (f cursor)) : Cuts causes (get >>= f) := by
  intro front rest start b after h hall hrun
  have hshort : (get >>= f) ⟨front, start, h⟩ = f ⟨front ++ rest, start, hall⟩ ⟨front, start, h⟩ :=
    congrFun (hpos ⟨front, start, h⟩ ⟨front ++ rest, start, hall⟩ rfl) _
  rw [hshort]
  exact hf _ h hall hrun

theorem cuts_ite {c : Prop} [Decidable c] {x y : EStateM ε Cursor α} (hx : Cuts causes x)
    (hy : Cuts causes y) :
    Cuts causes (if c then x else y) := by
  split
  · exact hx
  · exact hy

/-- A check before the rest. -/
theorem Cuts.unless {c : Prop} [Decidable c] {e : ε} {f : α → EStateM ε Cursor β} {u : α}
    (hf : Cuts causes (f u)) :
    Cuts causes (if c then (throw e : EStateM ε Cursor α) >>= f else f u) :=
  cuts_ite (fun _ _ _ _ _ _ _ hrun => by
    obtain ⟨_, _, hthrow, -⟩ := bind_ok hrun
    cases hthrow) hf

theorem Cuts.lift {action : Reading α} (h : Cuts CacheError.IsCorrupt action) :
    Cuts Fault.IsCorrupt (liftM action : Decoding α) := by
  intro front rest start a after hstart hall hrun
  rcases h hstart hall (lift_eq_ok.1 hrun) with
    ⟨finish, hfinish, h', rfl, hshort⟩ | ⟨e, t, hshort, cause, rfl⟩
  · exact .inl ⟨finish, hfinish, h', rfl, lift_eq_ok.2 hshort⟩
  · exact .inr ⟨_, t, lift_eq_error.2 hshort, cause, rfl⟩

theorem cuts_readMany {causes : CacheError → Prop} {item : Reading α} (h : Cuts causes item)
    (count : Nat) :
    Cuts causes (readMany item count) := by
  induction count with
  | zero => exact cuts_pure []
  | succ count ih => exact h.bind fun _ => ih.bind fun _ => cuts_pure _

/-! ## 2. Bytes -/

theorem cuts_seek (pos : Nat) : Cuts CacheError.IsCorrupt (seek pos) := by
  intro front rest start a after h hall hrun
  unfold seek at hrun ⊢
  split at hrun
  · rename_i hfinish
    cases hrun
    by_cases hinside : pos ≤ front.size
    · exact .inl ⟨pos, hfinish, hinside, rfl, dif_pos hinside⟩
    · exact .inr ⟨_, _, dif_neg hinside, _, rfl⟩
  · cases hrun

/-- The bytes up to a place that is left are those that were there. -/
theorem extract_front {front rest : Bytes} {start finish : Nat} (h : finish ≤ front.size) :
    (front ++ rest).extract start finish = front.extract start finish := by
  rw [Array.extract_append, Nat.sub_eq_zero_of_le h, Array.extract_zero, Array.append_empty]

theorem cuts_readBytes (n : Nat) : Cuts CacheError.IsCorrupt (readBytes n) := by
  intro front rest start a after h hall hrun
  unfold readBytes at hrun ⊢
  split at hrun
  · rename_i hfinish
    cases hrun
    by_cases hinside : start + n ≤ front.size
    · refine .inl ⟨start + n, hfinish, hinside, rfl, ?_⟩
      rw [dif_pos hinside, extract_front hinside]
    · exact .inr ⟨_, _, dif_neg hinside, _, rfl⟩
  · cases hrun

theorem cuts_readU8 : Cuts CacheError.IsCorrupt readU8 :=
  (cuts_readBytes 1).bind fun _ => cuts_pure _

theorem cuts_readU16 : Cuts CacheError.IsCorrupt readU16 :=
  (cuts_readBytes 2).bind fun _ => cuts_pure _

theorem cuts_readU32 : Cuts CacheError.IsCorrupt readU32 :=
  (cuts_readBytes 4).bind fun _ => cuts_pure _

theorem cuts_readI32 : Cuts CacheError.IsCorrupt readI32 := cuts_readU32.bind fun _ => cuts_pure _

theorem cuts_readU64 : Cuts CacheError.IsCorrupt readU64 :=
  (cuts_readBytes 8).bind fun _ => cuts_pure _

theorem cuts_align : Cuts CacheError.IsCorrupt align :=
  Cuts.bind_pos (fun _ _ h => by rw [h]) fun _ => cuts_seek _

/-- **What is run from a place of bytes is run alike on what is left of them, or is refused for what
    they hold.** -/
theorem Cuts.runAt {action : Reading α} {front rest : Bytes} {pos : Nat} {a : α}
    (h : Cuts CacheError.IsCorrupt action)
    (hrun : Cursor.runAt (front ++ rest) pos action = .ok a) :
    Cursor.runAt front pos action = .ok a ∨ ∃ cause,
      Cursor.runAt front pos action = .error (.corrupt cause) := by
  unfold Cursor.runAt at hrun ⊢
  split at hrun
  · rename_i hwhole
    cases hrun
    have hcuts := (cuts_seek pos).bind fun _ => h
    rcases hcuts (Nat.zero_le front.size) (Nat.zero_le _) hwhole with
      ⟨_, _, _, -, hshort⟩ | ⟨_, _, hshort, cause, rfl⟩
    · exact .inl (by rw [ofBytes, hshort])
    · exact .inr ⟨cause, by rw [ofBytes, hshort]⟩
  · cases hrun

/-! ## 3. Texts, counts and lists -/

theorem cuts_decodeText (bytes : Bytes) : Cuts CacheError.IsCorrupt (decodeText bytes) := by
  unfold decodeText
  split
  · exact cuts_pure _
  · exact cuts_throw _

theorem cuts_readString : Cuts CacheError.IsCorrupt readString :=
  cuts_readU32.bind fun _ => (cuts_readBytes _).bind fun _ => cuts_decodeText _

/-- **A nul that is found in what is left is the one that was found in the whole.** -/
theorem findByte?_front {front rest : Bytes} {byte : UInt8} {pos found first : Nat}
    (hall : (front ++ rest).findByte? byte pos = some found)
    (h : front.findByte? byte pos = some first) :
    first = found := by
  obtain ⟨hle, hat, hbefore⟩ := findByte?_eq_some hall
  obtain ⟨hle', hat', hbefore'⟩ := findByte?_eq_some h
  have hsame : ∀ i < front.size, (front ++ rest)[i]? = front[i]? :=
    fun i hi => Array.getElem?_append_left hi
  have hinside := lt_size_of_findByte? h
  rcases Nat.lt_trichotomy first found with hlt | heq | hgt
  · exact absurd ((hsame first hinside).trans hat') (hbefore first hle' hlt)
  · exact heq
  · exact absurd ((hsame found (by omega)).symm.trans hat) (hbefore' found hle hgt)

theorem cuts_readTerminated : Cuts CacheError.IsCorrupt readTerminated := by
  intro front rest start a after h hall hrun
  unfold readTerminated at hrun ⊢
  split at hrun
  · cases hrun
  · rename_i found hfound
    cases hrun
    split
    · exact .inr ⟨_, _, rfl, _, rfl⟩
    · rename_i first hfirst
      obtain rfl := findByte?_front hfound hfirst
      have hinside := lt_size_of_findByte? hfirst
      refine .inl ⟨first + 1, lt_size_of_findByte? hfound, hinside, rfl, ?_⟩
      simp only [extract_front (Nat.le_of_lt hinside)]

theorem cuts_readCString : Cuts CacheError.IsCorrupt readCString :=
  cuts_readTerminated.bind fun _ => cuts_decodeText _

/-- **A count is refused where too little is left for what is counted**, or accepted as it was. -/
theorem cuts_readCount (minSize : Nat) : Cuts CacheError.IsCorrupt (readCount minSize) := by
  refine cuts_readU32.bind fun word front rest start a after h hall hrun => ?_
  obtain ⟨cursor, _, hget, hrun⟩ := bind_ok hrun
  cases hget
  obtain ⟨-, hdone⟩ := (refusal_eq_ok (u := ())).1 hrun
  obtain ⟨rfl, rfl⟩ := pure_ok hdone
  have hhere : (get : Reading Cursor) ⟨front, start, h⟩ = .ok ⟨front, start, h⟩ ⟨front, start, h⟩ :=
    rfl
  rw [bind_of_ok hhere]
  by_cases hroom : (Cursor.mk front start h).remaining < word.toNat * minSize
  · simp only [hroom, if_true]
    exact .inr ⟨_, _, rfl, _, rfl⟩
  · simp only [hroom, if_false]
    exact .inl ⟨start, hall, h, rfl, rfl⟩

theorem cuts_readList (minSize : Nat) {item : Reading α} (h : Cuts CacheError.IsCorrupt item) :
    Cuts CacheError.IsCorrupt (readList minSize item) :=
  (cuts_readCount minSize).bind fun _ => cuts_readMany h _

theorem cuts_readBlob : Cuts CacheError.IsCorrupt readBlob :=
  (cuts_readCount 1).bind fun _ => cuts_readBytes _

end Cursor

end CodeVault
