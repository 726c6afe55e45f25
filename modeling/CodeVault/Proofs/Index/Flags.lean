import CodeVault.Index.Basic
import CodeVault.Proofs.Outcome
import Mathlib.Logic.Basic

/-!
# What becomes of entries in a run

* `Entry.Became`: an entry stays what it is, and only flags that belong to the run change; what is
  not entrant stays so;
* `EntryIndex.Evolves`: every entry is still there under its id and became what it is; an entry is
  marked as failed if it was before, or if it is the one that fails now;
* marking, invalidating and adding entries are such changes.
-/

namespace CodeVault

/-! ## 1. One entry -/

/-- What an entry may become in a run. -/
structure Entry.Became (entry now : Entry) : Prop where
  same : now = { entry with flags := now.flags }
  forPreload : now.flags.forPreload = entry.flags.forPreload
  initBarriers : now.flags.initBarriers = entry.flags.initBarriers
  ignoreDecompile : now.flags.ignoreDecompile = entry.flags.ignoreDecompile
  notEntrant : entry.flags.notEntrant = true → now.flags.notEntrant = true

theorem Entry.Became.refl (entry : Entry) : entry.Became entry := ⟨rfl, rfl, rfl, rfl, fun h => h⟩

theorem Entry.Became.trans {first second third : Entry} (h : first.Became second)
    (h' : second.Became third) : first.Became third := by
  refine ⟨?_, h'.forPreload.trans h.forPreload, h'.initBarriers.trans h.initBarriers,
    h'.ignoreDecompile.trans h.ignoreDecompile, fun hout => h'.notEntrant (h.notEntrant hout)⟩
  rw [h'.same, h.same]

namespace EntryIndex

variable {index : EntryIndex} {id other : EntryId} {entry : Entry}

/-! ## 2. All entries -/

/-- Every entry is still there and became what it is; `failing` is the entry that fails now, if
    any. -/
structure Evolves (failing : Option EntryId) (before after : EntryIndex) : Prop where
  loaded : after.loaded.size = before.loaded.size
  entries : ∀ ⦃id entry⦄, before.get? id = some entry → ∃ now, after.get? id = some now ∧
    entry.Became now ∧ now.flags.loadFail = (entry.flags.loadFail || decide (failing = some id))

theorem Evolves.refl (index : EntryIndex) : Evolves none index index :=
  ⟨rfl, fun _ entry h => ⟨entry, h, .refl entry, by simp⟩⟩

theorem Evolves.trans {first second third : EntryIndex} (h : Evolves none first second)
    (h' : Evolves none second third) : Evolves none first third := by
  refine ⟨h'.loaded.trans h.loaded, fun id entry hentry => ?_⟩
  obtain ⟨middle, hmiddle, hbecame, hfail⟩ := h.entries hentry
  obtain ⟨now, hnow, hbecame', hfail'⟩ := h'.entries hmiddle
  exact ⟨now, hnow, hbecame.trans hbecame', by simp [hfail', hfail]⟩

theorem get?_put (h : (index.get? id).isSome) :
    (index.put id entry).get? other = if other = id then some entry else index.get? other := by
  cases id with
  | loaded i =>
    have hlt : i < index.loaded.size := by simpa [get?] using h
    cases other with
    | loaded j =>
      by_cases heq : j = i
      · subst heq
        simp [put, get?, hlt]
      · simp [put, get?, heq, Ne.symm heq]
    | stored j => simp [put, get?]
  | stored i =>
    have hlt : i < index.stored.size := by simpa [get?] using h
    cases other with
    | loaded j => simp [put, get?]
    | stored j =>
      by_cases heq : j = i
      · subst heq
        simp [put, get?, hlt]
      · simp [put, get?, heq, Ne.symm heq]

theorem get?_flag {f : EntryFlags → EntryFlags} :
    (index.flag id f).get? other =
      (index.get? other).map fun entry => if other = id then
        { entry with flags := f entry.flags } else entry := by
  unfold flag
  cases hget : index.get? id with
  | none =>
    by_cases heq : other = id
    · subst heq
      simp [hget]
    · simp [heq]
  | some entry =>
    have hsome : (index.get? id).isSome := by simp [hget]
    simp only [get?_put hsome]
    by_cases heq : other = id
    · subst heq
      simp [hget]
    · simp [heq]

theorem size_loaded_flag {f : EntryFlags → EntryFlags} :
    (index.flag id f).loaded.size = index.loaded.size := by
  unfold flag
  cases index.get? id with
  | none => rfl
  | some entry => cases id <;> simp [put]

theorem size_stored_flag {f : EntryFlags → EntryFlags} :
    (index.flag id f).stored.size = index.stored.size := by
  unfold flag
  cases index.get? id with
  | none => rfl
  | some entry => cases id <;> simp [put]

/-- **Changing flags that belong to the run of one entry is a change that a run may make.** -/
theorem evolves_flag {f : EntryFlags → EntryFlags} {failing : Option EntryId}
    (hbecame : ∀ entry : Entry, entry.Became { entry with flags := f entry.flags })
    (hfail : ∀ flags, (f flags).loadFail = (flags.loadFail || decide (failing = some id)))
    (hother : ∀ other, failing = some other → other = id) :
    Evolves failing index (index.flag id f) := by
  refine ⟨size_loaded_flag, fun other entry hentry => ?_⟩
  rw [get?_flag, hentry]
  by_cases heq : other = id
  · subst heq
    exact ⟨_, by simp, hbecame entry, hfail entry.flags⟩
  · have hnot : failing ≠ some other := fun h => heq (hother other h)
    exact ⟨entry, by simp [heq], .refl entry, by simp [hnot]⟩

theorem evolves_markLoaded (id : EntryId) : Evolves none index (index.markLoaded id) :=
  evolves_flag (fun _ => ⟨rfl, rfl, rfl, rfl, fun h => h⟩) (by simp) (by simp)

theorem evolves_markLoadFail (id : EntryId) : Evolves (some id) index (index.markLoadFail id) :=
  evolves_flag (fun _ => ⟨rfl, rfl, rfl, rfl, fun h => h⟩) (by simp) (by simp)

theorem evolves_leave (id : EntryId) : Evolves none index (index.leave id) :=
  evolves_flag (fun _ => ⟨rfl, rfl, rfl, rfl, fun _ => rfl⟩) (by simp) (by simp)

/-- **Invalidating an entry is a change that a run may make.** -/
theorem evolves_invalidate (index : EntryIndex) (id : EntryId) :
    Evolves none index (index.invalidate id).2 := by
  fun_induction invalidate index id with
  | case1 => exact .refl _
  | case2 => exact evolves_leave _
  | case3 index id entry _ _ next _ changed after heq ih =>
    rw [heq] at ih
    exact (evolves_leave id).trans ih
  | case4 => exact .refl _

theorem size_stored_invalidate (index : EntryIndex) (id : EntryId) :
    (index.invalidate id).2.stored.size = index.stored.size := by
  fun_induction invalidate index id with
  | case1 => rfl
  | case2 => exact size_stored_flag
  | case3 index id entry _ _ next _ changed after heq ih =>
    rw [heq] at ih
    exact ih.trans size_stored_flag
  | case4 => rfl

theorem notEntrant_leave (h : (index.leave id).get? id = some entry) :
    entry.flags.notEntrant = true := by
  rw [leave, get?_flag] at h
  obtain ⟨before, -, rfl⟩ := Option.map_eq_some_iff.1 h
  simp

/-- **What invalidating an entry does.** Nothing, if no entry is there that may be entered; else the
    entry is taken out, and after it the one that it is linked to is invalidated. -/
theorem invalidate_cases (index : EntryIndex) (id : EntryId) :
    ((∀ entry, index.get? id = some entry → entry.isEntrant = false) ∧
      index.invalidate id = (0, index)) ∨
    ∃ entry, index.get? id = some entry ∧ entry.isEntrant = true ∧
      (entry.next = none ∧ index.invalidate id = (1, index.leave id) ∨
        ∃ next, entry.next = some next ∧ index.invalidate id =
          (((index.leave id).invalidate next).1 + 1, ((index.leave id).invalidate next).2)) := by
  rw [invalidate]
  split
  · rename_i hnone
    refine .inl ⟨fun entry hentry => ?_, rfl⟩
    cases hnone.symm.trans hentry
  · rename_i entry hentry
    split
    · rename_i hentrant
      refine .inr ⟨entry, hentry, hentrant, ?_⟩
      split
      · rename_i hnext
        exact .inl ⟨hnext, rfl⟩
      · rename_i next hnext
        exact .inr ⟨next, hnext, rfl⟩
    · rename_i hout
      refine .inl ⟨fun found hfound => ?_, rfl⟩
      cases hentry.symm.trans hfound
      exact Bool.eq_false_iff.2 hout

/-- **What was invalidated is not entrant.** -/
theorem notEntrant_invalidate (h : (index.invalidate id).2.get? id = some entry) :
    entry.flags.notEntrant = true := by
  rcases invalidate_cases index id with
    ⟨hout, hsame⟩ | ⟨before, hbefore, -, ⟨-, hleave⟩ | ⟨next, -, hmore⟩⟩
  · rw [hsame] at h
    simpa [Entry.isEntrant] using hout entry h
  · rw [hleave] at h
    exact notEntrant_leave h
  · rw [hmore] at h
    obtain ⟨left, hleft⟩ : ∃ left, (index.leave id).get? id = some left := by
      rw [leave, get?_flag, hbefore]
      exact ⟨_, rfl⟩
    obtain ⟨now, hnow, hbecame, -⟩ := ((index.leave id).evolves_invalidate next).entries hleft
    cases h.symm.trans hnow
    exact hbecame.notEntrant (notEntrant_leave hleft)

/-- A link is the only thing that an entry gets when it is added. -/
theorem linked_eq (entry : Entry) :
    index.linked entry = { entry with next := (index.linked entry).next } := by
  unfold linked
  split <;> rfl

/-- **Adding an entry is a change that a run may make.** -/
theorem evolves_push (entry : Entry) :
    Evolves none index { index with stored := index.stored.push entry } := by
  refine ⟨rfl, fun id found hfound => ⟨found, ?_, .refl found, by simp⟩⟩
  cases id with
  | loaded i => exact hfound
  | stored i =>
    have hlt : i < index.stored.size := (Array.getElem?_eq_some_iff.1 hfound).1
    show (index.stored.push entry)[i]? = some found
    rw [Array.getElem?_push, if_neg (Nat.ne_of_lt hlt)]
    exact hfound

/-- **An entry that is added is the next of this run, and has got a slot.** -/
theorem addEntry_ok {after : EntryIndex} {arena grown : Arena} {id : EntryId}
    (h : index.addEntry entry arena = .ok (id, after) grown) :
    id = .stored index.stored.size ∧
      after = { index with stored := index.stored.push (index.linked entry) } ∧
      index.stored.size < wordSpace ∧ ∃ place,
        Arena.reserveTail Entry.encodedSize arena = .ok place grown := by
  obtain ⟨place, middle, hreserve, h⟩ := bind_ok h
  obtain ⟨hcount, h⟩ := (refusal_eq_ok (u := ())).1 h
  obtain ⟨hpair, rfl⟩ := pure_ok h
  cases hpair
  exact ⟨rfl, rfl, Nat.not_le.1 hcount, place, hreserve⟩

end EntryIndex

end CodeVault
