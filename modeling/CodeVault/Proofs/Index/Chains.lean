import CodeVault.Proofs.Index.Flags
import Mathlib.Logic.Relation

/-!
# Chains of versions

A method without barriers is linked to the latest version with barriers that could be entered when
it was added, and to no other: that version has no link itself.

* `latest_iff`: which version this is, among those of both populations;
* `Moves`: the index after entries were added without links, marked and invalidated in any order;
* **what is linked to a method leaves with it** (`out_invalidate`, `Paired.moves`), also when the
  method is reached from elsewhere;
* **invalidating a method takes the latest version with barriers along, and leaves all others as
  they are** (`cascade_of_moves`).
-/

namespace CodeVault

/-- Whether an entry is not after another: the loaded ones come first, and each population has its
    order. -/
def EntryId.upTo : EntryId → EntryId → Prop
  | .loaded i, .loaded j => i ≤ j
  | .loaded _, .stored _ => True
  | .stored i, .stored j => i ≤ j
  | .stored _, .loaded _ => False

namespace EntryIndex

variable {index before now after : EntryIndex} {id other head tail : EntryId} {entry : Entry}
  {method : UInt32}

/-! ## 1. The latest version -/

/-- An entry is a version, with barriers, of a method that may be entered. -/
def Version (index : EntryIndex) (method : UInt32) (id : EntryId) : Prop :=
  ∃ entry, index.get? id = some entry ∧ isBarrierVersion method entry = true

/-- An entry is the latest version, with barriers, of a method that may be entered. -/
def Latest (index : EntryIndex) (method : UInt32) (id : EntryId) : Prop :=
  index.Version method id ∧ ∀ other, index.Version method other → other.upTo id

/-- The last place of a population that holds a version is the greatest one that does. -/
theorem lastBarrier?_eq_some {entries : Array Entry} {i : Nat}
    (h : lastBarrier? entries method = some i) :
    (∃ entry, entries[i]? = some entry ∧ isBarrierVersion method entry = true) ∧
      ∀ j entry, entries[j]? = some entry → isBarrierVersion method entry = true → j ≤ i := by
  obtain ⟨k, hk, rfl⟩ := Option.map_eq_some_iff.1 h
  obtain ⟨hlt, hversion, hfirst⟩ := List.findIdx?_eq_some_iff_getElem.1 hk
  rw [List.length_reverse, Array.length_toList] at hlt
  rw [List.getElem_reverse, Array.getElem_toList] at hversion
  refine ⟨⟨_, Array.getElem?_eq_getElem (by omega), hversion⟩, fun j entry hentry hbarrier => ?_⟩
  obtain ⟨hj, rfl⟩ := Array.getElem?_eq_some_iff.1 hentry
  -- a later version would stand before place `k` of the reversed list
  refine Nat.le_of_not_lt fun hlater => hfirst (entries.size - 1 - j) (by omega) ?_
  simp only [List.getElem_reverse, Array.getElem_toList, Array.length_toList]
  have hback : entries.size - 1 - (entries.size - 1 - j) = j := by omega
  simpa only [hback] using hbarrier

theorem lastBarrier?_eq_none {entries : Array Entry} (h : lastBarrier? entries method = none)
    {j : Nat} (hget : entries[j]? = some entry) : isBarrierVersion method entry = false := by
  have hnone := Option.map_eq_none_iff.1 h
  refine List.findIdx?_eq_none_iff.1 hnone entry ?_
  rw [List.mem_reverse]
  exact Array.mem_toList_iff.2 (Array.mem_of_getElem? hget)

/-- The version that a method is linked to is the latest one. -/
theorem latest_of_barrierVersion? (h : index.barrierVersion? method = some id) :
    index.Latest method id := by
  unfold barrierVersion? at h
  split at h
  · rename_i i hlast
    cases h
    obtain ⟨hversion, hgreatest⟩ := lastBarrier?_eq_some hlast
    refine ⟨hversion, fun other hother => ?_⟩
    cases other with
    | loaded j => trivial
    | stored j =>
      obtain ⟨entry, hentry, hbarrier⟩ := hother
      exact hgreatest j entry hentry hbarrier
  · rename_i hstored
    obtain ⟨i, hlast, rfl⟩ := Option.map_eq_some_iff.1 h
    obtain ⟨hversion, hgreatest⟩ := lastBarrier?_eq_some hlast
    refine ⟨hversion, fun other hother => ?_⟩
    obtain ⟨entry, hentry, hbarrier⟩ := hother
    cases other with
    | loaded j => exact hgreatest j entry hentry hbarrier
    | stored j =>
      rw [lastBarrier?_eq_none hstored hentry] at hbarrier
      cases hbarrier

/-- Without a link there is no version at all. -/
theorem not_version_of_barrierVersion? (h : index.barrierVersion? method = none) :
    ¬ index.Version method id := by
  rintro ⟨entry, hentry, hbarrier⟩
  unfold barrierVersion? at h
  split at h
  · cases h
  · rename_i hstored
    have hloaded := Option.map_eq_none_iff.1 h
    have hnot : isBarrierVersion method entry = false := by
      cases id with
      | loaded j => exact lastBarrier?_eq_none hloaded hentry
      | stored j => exact lastBarrier?_eq_none hstored hentry
    rw [hnot] at hbarrier
    cases hbarrier

theorem upTo_antisymm (h : id.upTo other) (h' : other.upTo id) : id = other := by
  cases id <;> cases other <;> simp only [EntryId.upTo] at h h'
  · rw [Nat.le_antisymm h h']
  · rw [Nat.le_antisymm h h']

/-- **The version that a method is linked to is the latest one**, if there is one. -/
theorem latest_iff : index.Latest method id ↔ index.barrierVersion? method = some id := by
  refine ⟨fun hlatest => ?_, latest_of_barrierVersion?⟩
  cases hversion : index.barrierVersion? method with
  | none => exact absurd hlatest.1 (not_version_of_barrierVersion? hversion)
  | some found =>
    have hfound := latest_of_barrierVersion? hversion
    rw [upTo_antisymm (hfound.2 id hlatest.1) (hlatest.2 found hfound.1)]

/-! ## 2. Moves -/

/-- The index after an entry was added without a link, or was marked, or was invalidated. -/
inductive Move : EntryIndex → EntryIndex → Prop where
  | added (index : EntryIndex) {entry : Entry} (h : entry.next = none) :
      Move index { index with stored := index.stored.push (index.linked entry) }
  | invalidated (index : EntryIndex) (id : EntryId) : Move index (index.invalidate id).2
  | markedLoaded (index : EntryIndex) (id : EntryId) : Move index (index.markLoaded id)
  | markedLoadFail (index : EntryIndex) (id : EntryId) : Move index (index.markLoadFail id)

/-- The index after moves. -/
abbrev Moves : EntryIndex → EntryIndex → Prop := Relation.ReflTransGen Move

/-- An entry is there and may not be entered. -/
def Out (index : EntryIndex) (id : EntryId) : Prop :=
  ∃ entry, index.get? id = some entry ∧ entry.isEntrant = false

/-- An entry is there, and linked as given. -/
def Links (index : EntryIndex) (id : EntryId) (next : Option EntryId) : Prop :=
  ∃ entry, index.get? id = some entry ∧ entry.next = next

/-- What has become of an entry is out if the entry was, and keeps its link. -/
theorem Evolves.out {failing : Option EntryId} (h : Evolves failing before after)
    (hout : before.Out id) :
    after.Out id := by
  obtain ⟨entry, hentry, hleft⟩ := hout
  obtain ⟨now, hnow, hbecame, -⟩ := h.entries hentry
  have hflag : entry.flags.notEntrant = true := by simpa [Entry.isEntrant] using hleft
  exact ⟨now, hnow, by simp [Entry.isEntrant, hbecame.notEntrant hflag]⟩

theorem Evolves.links {failing : Option EntryId} {next : Option EntryId}
    (h : Evolves failing before after) (hlinks : before.Links id next) : after.Links id next := by
  obtain ⟨entry, hentry, hnext⟩ := hlinks
  obtain ⟨now, hnow, hbecame, -⟩ := h.entries hentry
  exact ⟨now, hnow, by rw [hbecame.same]; exact hnext⟩

/-- A move is a change that a run may make. -/
theorem Move.evolves (h : Move before after) : ∃ failing, Evolves failing before after := by
  cases h with
  | added => exact ⟨none, evolves_push _⟩
  | invalidated => exact ⟨none, evolves_invalidate _ _⟩
  | markedLoaded => exact ⟨none, evolves_markLoaded _⟩
  | markedLoadFail id => exact ⟨some id, evolves_markLoadFail id⟩

theorem out_leave (h : (index.get? id).isSome) : (index.leave id).Out id := by
  obtain ⟨entry, hentry⟩ := Option.isSome_iff_exists.1 h
  refine ⟨_, by rw [leave, get?_flag, hentry, Option.map_some, if_pos rfl], rfl⟩

theorem get?_leave_of_ne (h : other ≠ id) : (index.leave id).get? other = index.get? other := by
  rw [leave, get?_flag]
  cases index.get? other with
  | none => rfl
  | some entry => rw [Option.map_some, if_neg h]

theorem out_leave_of_ne (h : other ≠ id) : (index.leave id).Out other ↔ index.Out other := by
  unfold Out
  rw [get?_leave_of_ne h]

theorem Links.unique {next next' : Option EntryId} (h : index.Links id next)
    (h' : index.Links id next') :
    next = next' := by
  obtain ⟨entry, hentry, rfl⟩ := h
  obtain ⟨entry', hentry', rfl⟩ := h'
  cases hentry.symm.trans hentry'
  rfl

/-! ## 3. What is linked leaves together -/

/-- An entry is linked to another, which is out as soon as the entry is. -/
structure Paired (head tail : EntryId) (index : EntryIndex) : Prop where
  links : index.Links head (some tail)
  there : (index.get? tail).isSome
  out : index.Out head → index.Out tail

/-- **A chain that takes an entry out goes on to what it is linked to**, wherever the chain
    began. -/
theorem out_invalidate (hlinks : index.Links head (some tail)) (hthere : (index.get? tail).isSome)
    (hout : (index.Out head → index.Out tail) ∨ id = tail) :
    (index.invalidate id).2.Out head → (index.invalidate id).2.Out tail := by
  fun_induction invalidate index id with
  | case1 index id hnone =>
    rcases hout with hout | rfl
    · exact hout
    · rw [hnone] at hthere
      cases hthere
  | case2 index id entry hentry _ hnext =>
    by_cases htail : tail = id
    · subst htail
      exact fun _ => out_leave hthere
    · have hhead : head ≠ id := by
        rintro rfl
        cases hlinks.unique ⟨entry, hentry, hnext⟩
      have hkept := hout.resolve_right (Ne.symm htail)
      exact fun hleft => (evolves_leave id).out (hkept ((out_leave_of_ne hhead).1 hleft))
  | case3 index id entry hentry _ next hnext changed after heq ih =>
    rw [heq] at ih
    have hevolves : Evolves none index (index.leave id) := evolves_leave id
    refine ih (hevolves.links hlinks) ?_ ?_
    · obtain ⟨linked, hlinked⟩ := Option.isSome_iff_exists.1 hthere
      obtain ⟨now, hnow, -⟩ := hevolves.entries hlinked
      exact Option.isSome_iff_exists.2 ⟨now, hnow⟩
    · by_cases htail : tail = id
      · subst htail
        exact .inl fun _ => out_leave hthere
      · by_cases hhead : head = id
        · subst hhead
          exact .inr (Option.some.inj (hlinks.unique ⟨entry, hentry, hnext⟩)).symm
        · have hkept := hout.resolve_right (Ne.symm htail)
          exact .inl fun hleft => hevolves.out (hkept ((out_leave_of_ne hhead).1 hleft))
  | case4 index id entry hentry hleft =>
    rcases hout with hout | rfl
    · exact hout
    · exact fun _ => ⟨entry, hentry, by simpa using hleft⟩

theorem get?_push (h : (index.get? id).isSome) :
    ({ index with stored := index.stored.push entry } : EntryIndex).get? id = index.get? id := by
  cases id with
  | loaded i => rfl
  | stored i =>
    obtain ⟨found, hfound⟩ := Option.isSome_iff_exists.1 h
    have hlt : i < index.stored.size := (Array.getElem?_eq_some_iff.1 hfound).1
    show (index.stored.push entry)[i]? = index.stored[i]?
    rw [Array.getElem?_push, if_neg (Nat.ne_of_lt hlt)]

/-- An entry that is there after another was added was there before, or is that one, with the next
    id. -/
theorem get?_push_cases {found : Entry}
    (h : ({ index with stored := index.stored.push entry } : EntryIndex).get? id = some found) :
    index.get? id = some found ∨ id = .stored index.stored.size ∧ found = entry := by
  cases id with
  | loaded i => exact .inl h
  | stored i =>
    have hpushed : (index.stored.push entry)[i]? = some found := h
    rw [Array.getElem?_push] at hpushed
    split at hpushed
    · rename_i hlast
      exact .inr ⟨by rw [hlast], (Option.some.inj hpushed).symm⟩
    · exact .inl hpushed

/-- Marks do not take an entry out. -/
theorem out_of_flag {f : EntryFlags → EntryFlags}
    (hflag : ∀ flags, (f flags).notEntrant = flags.notEntrant) (h : (index.flag id f).Out other) :
    index.Out other := by
  obtain ⟨now, hnow, hleft⟩ := h
  rw [get?_flag] at hnow
  obtain ⟨entry, hentry, rfl⟩ := Option.map_eq_some_iff.1 hnow
  refine ⟨entry, hentry, ?_⟩
  by_cases heq : other = id
  · simpa only [heq, if_true, Entry.isEntrant, hflag] using hleft
  · simpa only [heq, if_false] using hleft

/-- **A move keeps a pair a pair.** -/
theorem Paired.move (h : Paired head tail before) (hmove : Move before after) :
    Paired head tail after := by
  obtain ⟨failing, hevolves⟩ := hmove.evolves
  obtain ⟨entry, hentry⟩ := Option.isSome_iff_exists.1 h.there
  obtain ⟨now, hnow, -⟩ := hevolves.entries hentry
  obtain ⟨linked, hlinked, -⟩ := h.links
  refine ⟨hevolves.links h.links, Option.isSome_iff_exists.2 ⟨now, hnow⟩, ?_⟩
  cases hmove with
  | added =>
    unfold Out
    rw [get?_push (Option.isSome_iff_exists.2 ⟨linked, hlinked⟩), get?_push h.there]
    exact h.out
  | invalidated => exact out_invalidate h.links h.there (.inl h.out)
  | markedLoaded id =>
    exact fun hleft => hevolves.out
      (h.out (out_of_flag (f := ({ · with loaded := true })) (fun _ => rfl) hleft))
  | markedLoadFail id =>
    exact fun hleft => hevolves.out
      (h.out (out_of_flag (f := ({ · with loadFail := true })) (fun _ => rfl) hleft))

/-- **Moves keep a pair a pair.** -/
theorem Paired.moves (h : Paired head tail before) (hmoves : Moves before after) :
    Paired head tail after := by
  induction hmoves with
  | refl => exact h
  | tail _ hmove ih => exact ih.move hmove

/-! ## 4. Invalidating a method -/

/-- No version with barriers is linked to another. -/
def Ending (index : EntryIndex) : Prop :=
  ∀ ⦃id entry⦄, index.get? id = some entry → entry.flags.initBarriers = true → entry.next = none

/-- A version with barriers is added without a link. -/
theorem next_linked (h : entry.next = none) (hbarrier : entry.flags.initBarriers = true) :
    (index.linked entry).next = none := by
  unfold linked
  rw [hbarrier, Bool.not_true, Bool.and_false, Bool.false_and, if_neg Bool.false_ne_true]
  exact h

/-- An entry that is there after a change that adds none was there before it. -/
theorem Evolves.was {failing : Option EntryId} (h : Evolves failing before after)
    (hsize : after.stored.size = before.stored.size) (hnow : after.get? id = some entry) :
    ∃ was, before.get? id = some was ∧ was.Became entry := by
  have hthere : ∃ was, before.get? id = some was := by
    cases id with
    | loaded i =>
      have hlt : i < after.loaded.size := (Array.getElem?_eq_some_iff.1 hnow).1
      exact ⟨_, Array.getElem?_eq_getElem (h.loaded ▸ hlt)⟩
    | stored i =>
      have hlt : i < after.stored.size := (Array.getElem?_eq_some_iff.1 hnow).1
      exact ⟨_, Array.getElem?_eq_getElem (hsize ▸ hlt)⟩
  obtain ⟨was, hwas⟩ := hthere
  obtain ⟨found, hfound, hbecame, -⟩ := h.entries hwas
  cases hfound.symm.trans hnow
  exact ⟨was, hwas, hbecame⟩

/-- An entry that is there after a move was there before it, or was added without a link. -/
theorem Move.entry_cases (h : Move before after) (hnow : after.get? id = some entry) :
    (∃ was, before.get? id = some was ∧ was.Became entry) ∨
      ∃ added, added.next = none ∧ entry = before.linked added := by
  cases h with
  | added hnext =>
    rcases get?_push_cases hnow with hwas | ⟨-, hadded⟩
    · exact .inl ⟨entry, hwas, .refl entry⟩
    · exact .inr ⟨_, hnext, hadded⟩
  | invalidated id => exact .inl ((evolves_invalidate _ id).was (size_stored_invalidate _ id) hnow)
  | markedLoaded id => exact .inl ((evolves_markLoaded id).was size_stored_flag hnow)
  | markedLoadFail id => exact .inl ((evolves_markLoadFail id).was size_stored_flag hnow)

/-- **A move links no version with barriers.** -/
theorem Ending.move (h : Ending before) (hmove : Move before after) : Ending after := by
  intro id entry hentry hbarrier
  rcases hmove.entry_cases hentry with ⟨was, hwas, hbecame⟩ | ⟨added, hnext, rfl⟩
  · have hsame : entry.next = was.next := by rw [hbecame.same]
    exact hsame.trans (h hwas (hbecame.initBarriers.symm.trans hbarrier))
  · refine next_linked hnext ?_
    rw [linked_eq] at hbarrier
    exact hbarrier

/-- **Moves link no version with barriers.** -/
theorem Ending.moves (h : Ending before) (hmoves : Moves before after) : Ending after := by
  induction hmoves with
  | refl => exact h
  | tail _ hmove ih => exact ih.move hmove

theorem Links.moves {next : Option EntryId} (h : before.Links id next)
    (hmoves : Moves before after) :
    after.Links id next := by
  induction hmoves with
  | refl => exact h
  | tail _ hmove ih =>
    obtain ⟨failing, hevolves⟩ := hmove.evolves
    exact hevolves.links ih

/-- Invalidating what is out already changes nothing. -/
theorem invalidate_of_out (h : index.Out id) : index.invalidate id = (0, index) := by
  obtain ⟨entry, hentry, hout⟩ := h
  rcases invalidate_cases index id with ⟨-, hsame⟩ | ⟨found, hfound, hentrant, -⟩
  · exact hsame
  · cases hentry.symm.trans hfound
    cases hout.symm.trans hentrant

/-- Invalidating an entry without a link changes no other. -/
theorem get?_invalidate_of_end (h : index.Links id none) (hne : other ≠ id) :
    (index.invalidate id).2.get? other = index.get? other := by
  obtain ⟨entry, hentry, hnext⟩ := h
  rcases invalidate_cases index id with
    ⟨-, hsame⟩ | ⟨found, hfound, -, ⟨-, hleave⟩ | ⟨next, hlink, -⟩⟩
  · rw [hsame]
  · rw [hleave]
    exact get?_leave_of_ne hne
  · cases hentry.symm.trans hfound
    cases hnext.symm.trans hlink

/-- Invalidating an entry that is linked to one without a link changes no third one. -/
theorem get?_invalidate_of_pair (h : index.Links id (some tail)) (hend : index.Links tail none)
    (hne : other ≠ id) (hother : other ≠ tail) :
    (index.invalidate id).2.get? other = index.get? other := by
  obtain ⟨entry, hentry, hnext⟩ := h
  rcases invalidate_cases index id with
    ⟨-, hsame⟩ | ⟨found, hfound, -, ⟨-, hleave⟩ | ⟨next, hlink, hmore⟩⟩
  · rw [hsame]
  · rw [hleave]
    exact get?_leave_of_ne hne
  · cases hentry.symm.trans hfound
    cases hnext.symm.trans hlink
    rw [hmore]
    exact (get?_invalidate_of_end ((evolves_leave id).links hend) hother).trans
      (get?_leave_of_ne hne)

/-- What is invalidated is out. -/
theorem out_self_invalidate (h : (index.get? id).isSome) : (index.invalidate id).2.Out id := by
  obtain ⟨entry, hentry⟩ := Option.isSome_iff_exists.1 h
  obtain ⟨now, hnow, -⟩ := (index.evolves_invalidate id).entries hentry
  exact ⟨now, hnow, by simp [Entry.isEntrant, notEntrant_invalidate hnow]⟩

/-- What invalidating a method comes to that was added to an index: it is out, the latest version
    with barriers of then is out, and nothing else has changed. -/
structure Cascade (before now : EntryIndex) (method : UInt32) (id : EntryId) : Prop where
  head : (now.invalidate id).2.Out id
  latest : ∀ version, before.Latest method version → (now.invalidate id).2.Out version
  others : ∀ other, other ≠ id → ¬ before.Latest method other →
    (now.invalidate id).2.get? other = now.get? other

/-- A method without barriers is added with a link to the latest version with barriers. -/
theorem links_added (hkind : entry.kind = .code) (hregular : entry.flags.initBarriers = false)
    (hnext : entry.next = none) :
    ({ index with stored := index.stored.push (index.linked entry) } : EntryIndex).Links
      (.stored index.stored.size) (index.barrierVersion? entry.id) := by
  refine ⟨index.linked entry, Array.getElem?_push_size, ?_⟩
  rw [linked, hkind, hregular, hnext]
  rfl

/-- A method and the version that it is linked to are a pair, if the method may be entered when it
    is added. -/
theorem paired_added (hkind : entry.kind = .code) (hregular : entry.flags.initBarriers = false)
    (hnext : entry.next = none) (hentrant : entry.isEntrant = true)
    (hversion : index.barrierVersion? entry.id = some tail) :
    Paired (.stored index.stored.size) tail
      { index with stored := index.stored.push (index.linked entry) } := by
  obtain ⟨⟨version, hget, -⟩, -⟩ := latest_of_barrierVersion? hversion
  have hthere : (index.get? tail).isSome := Option.isSome_iff_exists.2 ⟨version, hget⟩
  refine ⟨hversion ▸ links_added hkind hregular hnext, by rw [get?_push hthere]; exact hthere, ?_⟩
  rintro ⟨found, hfound, hleft⟩
  have hadded : found = index.linked entry :=
    Option.some.inj (hfound.symm.trans Array.getElem?_push_size)
  rw [hadded, linked_eq] at hleft
  cases hleft.symm.trans hentrant

/-- **Invalidating a method takes the latest version with barriers along that could be entered when
    the method was added, whatever was added, marked and invalidated in between**, and leaves all
    others as they are. -/
theorem cascade_of_moves {start : EntryIndex} (hstart : Ending start) (hbefore : Moves start before)
    (hkind : entry.kind = .code) (hregular : entry.flags.initBarriers = false)
    (hnext : entry.next = none) (hentrant : entry.isEntrant = true)
    (hnow : Moves { before with stored := before.stored.push (before.linked entry) } now) :
    Cascade before now entry.id (.stored before.stored.size) := by
  have hlinks := (links_added hkind hregular hnext).moves hnow
  have hthere : (now.get? (.stored before.stored.size)).isSome := by
    obtain ⟨found, hfound, -⟩ := hlinks
    exact Option.isSome_iff_exists.2 ⟨found, hfound⟩
  have hhead := out_self_invalidate hthere
  cases hversion : before.barrierVersion? entry.id with
  | none =>
    rw [hversion] at hlinks
    refine ⟨hhead, fun version hlatest => ?_, fun other hne _ => get?_invalidate_of_end hlinks hne⟩
    rw [latest_iff, hversion] at hlatest
    cases hlatest
  | some tail =>
    rw [hversion] at hlinks
    have hpaired := (paired_added hkind hregular hnext hentrant hversion).moves hnow
    have hlatest := latest_of_barrierVersion? hversion
    have hend : now.Links tail none := by
      obtain ⟨⟨version, hget, hbarrier⟩, -⟩ := hlatest
      have hflag : version.flags.initBarriers = true := by
        simp only [isBarrierVersion, Bool.and_eq_true] at hbarrier
        exact hbarrier.1.2
      have hbase : before.Links tail none := ⟨version, hget, hstart.moves hbefore hget hflag⟩
      exact (hbase.moves (.single (.added before hnext))).moves hnow
    refine ⟨hhead, fun version hversion' => ?_, fun other hne hnot => ?_⟩
    · rw [latest_iff, hversion] at hversion'
      cases hversion'
      exact (hpaired.move (.invalidated now _)).out hhead
    · refine get?_invalidate_of_pair hlinks hend hne ?_
      rintro rfl
      exact hnot hlatest

end EntryIndex

end CodeVault
