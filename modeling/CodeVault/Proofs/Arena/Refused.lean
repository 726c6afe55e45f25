import CodeVault.Proofs.Arena.Append
import CodeVault.Proofs.Cursor.Refusals

/-!
# What a refused write leaves

Writing is refused because there is no room, or because of what was to be written; never because of
what bytes hold.

* `Spoils before cause after`: of a refusal for `cause`, the mark of the arena is set exactly if it
  was set before or room has run out;
* `Tidy edge spoils action`: started behind `edge`, the action stays behind it; if it ends well the
  mark is as before, and if it is refused the mark is as `spoils` says. **Chains are tidy when their
  links are** (`Tidy.bind`);
* a word is written over bytes without a refusal where they were written before (`tidy_patchU32`).
-/

namespace CodeVault

/-- An error because there was no room. -/
def CacheError.IsExhausted (error : CacheError) : Prop :=
  ∃ requested remaining, error = .arenaExhausted requested remaining

namespace Arena

open Bytes Cursor

variable {ε α β : Type} {edge : Nat}

/-! ## 1. The mark -/

/-- How the mark is when writing was refused for a cause, which is not what bytes hold. -/
structure Spoils (before : Bool) (cause : CacheError) (after : Bool) : Prop where
  mark : after = true ↔ before = true ∨ cause.IsExhausted
  clean : ¬cause.IsCorrupt

/-- How the mark is when writing was refused; nothing is said of a process that stops. -/
def FaultSpoils (before : Bool) (fault : Fault CacheError) (after : Bool) : Prop :=
  ∀ cause, fault = .error cause → Spoils before cause after

/-- A cause that is neither that room has run out nor what bytes hold. -/
def Plain (cause : CacheError) : Prop := ¬cause.IsExhausted ∧ ¬cause.IsCorrupt

/-- A refusal for such a cause leaves the mark. -/
theorem Plain.spoils {cause : CacheError} (h : Plain cause) (mark : Bool) :
    Spoils mark cause mark :=
  ⟨⟨.inl, fun hmark => hmark.resolve_right h.1⟩, h.2⟩

theorem Plain.faultSpoils {cause : CacheError} (h : Plain cause) (mark : Bool) :
    FaultSpoils mark (.error cause) mark := by
  intro _ hcause
  cases hcause
  exact h.spoils mark

theorem plain_arenaFailed : Plain .arenaFailed := ⟨by rintro ⟨_, _, ⟨⟩⟩, by rintro ⟨_, ⟨⟩⟩⟩

theorem plain_malformed (why : Malformation) : Plain (.malformed why) :=
  ⟨by rintro ⟨_, _, ⟨⟩⟩, by rintro ⟨_, ⟨⟩⟩⟩

theorem plain_lookupFailed (why : LookupFailure) : Plain (.lookupFailed why) :=
  ⟨by rintro ⟨_, _, ⟨⟩⟩, by rintro ⟨_, ⟨⟩⟩⟩

theorem plain_symbol (why : SymbolError) : Plain (.symbol why) :=
  ⟨by rintro ⟨_, _, ⟨⟩⟩, by rintro ⟨_, ⟨⟩⟩⟩

/-! ## 2. Tidy actions -/

variable {spoils : Bool → ε → Bool → Prop}

/-- Started behind `edge`, the action stays behind it and leaves the mark, or is refused and the
    mark is as `spoils` says. -/
structure Tidy (edge : Nat) (spoils : Bool → ε → Bool → Prop)
    (action : EStateM ε Arena α) : Prop where
  ok : ∀ ⦃arena after a⦄, edge ≤ arena.position → action arena = .ok a after →
    edge ≤ after.position ∧ after.failed = arena.failed
  error : ∀ ⦃arena after cause⦄, edge ≤ arena.position → action arena = .error cause after →
    spoils arena.failed cause after.failed

theorem tidy_pure (a : α) : Tidy edge spoils (pure a : EStateM ε Arena α) where
  ok _ _ _ h hrun := by
    obtain ⟨-, rfl⟩ := pure_ok hrun
    exact ⟨h, rfl⟩
  error _ _ _ _ hrun := nomatch hrun

theorem tidy_get : Tidy edge spoils (get : EStateM ε Arena Arena) where
  ok _ _ _ h hrun := by
    cases hrun
    exact ⟨h, rfl⟩
  error _ _ _ _ hrun := nomatch hrun

theorem tidy_throw {cause : ε} (h : ∀ mark, spoils mark cause mark) :
    Tidy edge spoils (throw cause : EStateM ε Arena α) where
  ok _ _ _ _ hrun := nomatch hrun
  error _ _ _ _ hrun := by
    cases hrun
    exact h _

/-- A chain whose second link is tidy from wherever the first has led. -/
theorem Tidy.bind_from {x : EStateM ε Arena α} {f : α → EStateM ε Arena β} (hx : Tidy edge spoils x)
    (hf : ∀ ⦃before middle a⦄, x before = .ok a middle →
      ∃ edge', edge ≤ edge' ∧ (edge ≤ before.position → edge' ≤ middle.position) ∧
      Tidy edge' spoils (f a)) :
    Tidy edge spoils (x >>= f) where
  ok _ _ _ h hrun := by
    obtain ⟨a, middle, hfirst, hrest⟩ := bind_ok hrun
    obtain ⟨edge', hle, hmiddle, hf⟩ := hf hfirst
    obtain ⟨hafter, hmark⟩ := hf.ok (hmiddle h) hrest
    exact ⟨Nat.le_trans hle hafter, hmark.trans (hx.ok h hfirst).2⟩
  error _ _ _ h hrun := by
    rcases bind_error hrun with hfirst | ⟨a, middle, hfirst, hrest⟩
    · exact hx.error h hfirst
    · obtain ⟨edge', -, hmiddle, hf⟩ := hf hfirst
      exact (hx.ok h hfirst).2 ▸ hf.error (hmiddle h) hrest

/-- **A chain is tidy when its links are.** -/
theorem Tidy.bind {x : EStateM ε Arena α} {f : α → EStateM ε Arena β} (hx : Tidy edge spoils x)
    (hf : ∀ a, Tidy edge spoils (f a)) : Tidy edge spoils (x >>= f) :=
  hx.bind_from fun _ _ a hrun => ⟨edge, Nat.le_refl _, fun h => (hx.ok h hrun).1, hf a⟩

theorem tidy_ite {c : Prop} [Decidable c] {x y : EStateM ε Arena α} (hx : Tidy edge spoils x)
    (hy : Tidy edge spoils y) : Tidy edge spoils (if c then x else y) := by
  split
  · exact hx
  · exact hy

/-- A refusal before a chain. -/
theorem Tidy.unless {c : Prop} [Decidable c] {cause : ε} {f : α → EStateM ε Arena β} {u : α}
    (hcause : ∀ mark, spoils mark cause mark) (hf : Tidy edge spoils (f u)) :
    Tidy edge spoils (if c then (throw cause : EStateM ε Arena α) >>= f else f u) where
  ok _ _ _ h hrun := hf.ok h (refusal_eq_ok.1 hrun).2
  error _ _ _ h hrun := by
    by_cases hc : c
    · simp only [hc, if_true] at hrun
      rcases bind_error hrun with hthrow | ⟨_, _, hthrow, -⟩
      · cases hthrow
        exact hcause _
      · cases hthrow
    · simp only [hc, if_false] at hrun
      exact hf.error h hrun

theorem tidy_ofOutcome {outcome : Except ε α}
    (h : ∀ cause, outcome = .error cause → ∀ mark, spoils mark cause mark) :
    Tidy edge spoils (ofOutcome outcome : EStateM ε Arena α) := by
  cases outcome with
  | ok a => exact tidy_pure a
  | error cause => exact tidy_throw (h cause rfl)

theorem tidy_forM {item : α → EStateM ε Arena PUnit} (h : ∀ a, Tidy edge spoils (item a))
    (items : List α) :
    Tidy edge spoils (items.forM item) := by
  induction items with
  | nil => exact tidy_pure _
  | cons a items ih => exact (h a).bind (f := fun _ => items.forM item) fun _ => ih

theorem Tidy.lift {action : Writing α} (h : Tidy edge Spoils action) :
    Tidy edge FaultSpoils (liftM action : Encoding α) where
  ok _ _ _ hedge hrun := h.ok hedge (lift_eq_ok.1 hrun)
  error _ _ _ hedge hrun := by
    rintro cause rfl
    exact h.error hedge (lift_eq_error.1 hrun)

/-! ## 3. Writing -/

/-- **Asking for room sets the mark exactly if there is none.** -/
theorem tidy_ensure (requested : Nat) : Tidy edge Spoils (ensure requested) where
  ok _ _ _ h hrun := by
    obtain ⟨-, rfl⟩ := ensure_ok hrun
    exact ⟨h, rfl⟩
  error arena _ _ _ hrun := by
    rcases ensure_cases requested arena with ⟨-, hensure⟩ | ⟨-, -, hensure⟩ | ⟨-, -, hensure⟩ <;>
      cases hensure.symm.trans hrun
    · exact plain_arenaFailed.spoils arena.failed
    · exact ⟨⟨fun _ => .inr ⟨_, _, rfl⟩, fun _ => rfl⟩, by rintro ⟨_, ⟨⟩⟩⟩

theorem tidy_append (data : Bytes) : Tidy edge Spoils (append data) where
  ok arena _ _ h hrun := by
    cases hrun
    refine ⟨?_, rfl⟩
    show edge ≤ (arena.bytes ++ data).size
    rw [Array.size_append]
    exact Nat.le_trans h (Nat.le_add_right _ _)
  error _ _ _ _ hrun := nomatch hrun

theorem tidy_write (data : Bytes) : Tidy edge Spoils (write data) :=
  (tidy_ensure _).bind fun _ => tidy_append data

theorem tidy_align : Tidy edge Spoils align :=
  tidy_get.bind fun _ => tidy_ite ((tidy_write _).bind fun _ => tidy_pure _) (tidy_pure _)

theorem tidy_writeString (text : String) : Tidy edge Spoils (writeString text) :=
  Tidy.unless (plain_malformed _).spoils
    ((tidy_write _).bind fun _ => (tidy_write _).bind fun _ => tidy_pure _)

theorem tidy_writeCString (text : String) : Tidy edge Spoils (writeCString text) :=
  Tidy.unless (plain_malformed _).spoils ((tidy_write _).bind fun _ => tidy_pure _)

/-- **A word is written over bytes that were written before, or the process stops.** -/
theorem tidy_patchU32 {pos : Nat} (hpos : pos + 4 ≤ edge) (value : UInt32) :
    Tidy edge FaultSpoils (patchU32 pos value) where
  ok arena _ _ h hrun := by
    have hroom : pos + (ofU32 value).size ≤ arena.bytes.size := by
      rw [size_ofU32]
      exact Nat.le_trans hpos h
    obtain rfl := patchU32_ok hrun
    refine ⟨?_, rfl⟩
    show edge ≤ (arena.bytes.overwrite pos (ofU32 value)).size
    rw [size_overwrite hroom]
    exact h
  error arena _ _ h hrun := by
    rcases patchU32_cases pos value arena with ⟨-, hpatch⟩ | ⟨-, hend, -⟩ | ⟨-, -, hpatch⟩
    · cases hpatch.symm.trans hrun
      rintro _ ⟨⟩
    · exact absurd (Nat.le_trans hpos h) (Nat.not_le.2 hend)
    · cases hpatch.symm.trans hrun

/-! ## 4. What a refusal leaves -/

/-- There was no room, before or now, and nothing stays but the mark. -/
def Full (arena : Arena) (cause : CacheError) (after : Arena) : Prop :=
  (arena.failed = true ∨ cause.IsExhausted) ∧ ∃ failed, after = { arena with failed }

variable {arena after : Arena} {cause : CacheError}

theorem ensure_error {requested : Nat} (h : ensure requested arena = .error cause after) :
    Full arena cause after := by
  rcases ensure_cases requested arena with
    ⟨hfailed, hensure⟩ | ⟨-, -, hensure⟩ | ⟨-, -, hensure⟩ <;>
    cases hensure.symm.trans h
  · exact ⟨.inl hfailed, _, rfl⟩
  · exact ⟨.inr ⟨_, _, rfl⟩, _, rfl⟩

/-- **Bytes are refused because there is no room for them.** -/
theorem write_error {data : Bytes} (h : write data arena = .error cause after) :
    Full arena cause after := by
  rcases bind_error h with hensure | ⟨_, _, -, happend⟩
  · exact ensure_error hensure
  · cases happend

theorem align_error (h : Arena.align arena = .error cause after) : Full arena cause after := by
  rcases bind_error h with hget | ⟨_, _, hget, hrest⟩
  · cases hget
  · cases hget
    by_cases hpos : 0 < paddingAfter arena.position
    · simp only [hpos, if_true] at hrest
      rcases bind_error hrest with hwrite | ⟨_, _, -, hdone⟩
      · exact write_error hwrite
      · cases hdone
    · simp only [hpos, if_false] at hrest
      cases hrest

/-- At a boundary there is nothing to fill up. -/
theorem align_of_aligned (h : arena.position % dataAlignment = 0) :
    Arena.align arena = .ok () arena := by
  have hnone : paddingAfter arena.position = 0 := by
    simp only [paddingAfter, alignUp, dataAlignment] at h ⊢
    omega
  have hget : (get : Writing Arena) arena = .ok arena arena := rfl
  rw [Arena.align, bind_of_ok hget, hnone]
  rfl

/-- What an arena has at its ends, whatever is written and taken back. -/
theorem outlasts_ends (capacity tail : Nat) :
    Outlasts (fun arena => arena.capacity = capacity ∧ arena.tail = tail) 0 where
  write _ := (preserves_ensure (fun _ _ h => h) _).bind fun _ _ h => h
  patchU32 _ _ _ := preserves_patchU32 fun _ h _ => h
  truncate _ _ h _ := h
  edge_le _ _ := Nat.zero_le _

end Arena

end CodeVault
