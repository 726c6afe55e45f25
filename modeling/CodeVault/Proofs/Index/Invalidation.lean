import CodeVault.Proofs.Index.Chains
import CodeVault.Proofs.Index.Counts
import CodeVault.Proofs.Index.Listed

/-!
# Invalidation along any links

An invalidation goes from entry to entry along the links, and stops at the first that is not there
or not entrant. Links may share tails, lead to no entry, or lead around in a circle.

* `walk`: the same as a loop that may be out of steps. It is not, with more steps than there are
  entrant entries, whatever the links are (`walk_of_invalidate`);
* `Trail`: the entries that are reached from one through entrant entries only. **An invalidation
  takes exactly these out, answers how many they are, and changes nothing else**
  (`invalidate_takes_trail`);
* `OfRun`: the indices that a run comes by. In these what is linked behind an entry that is not
  entrant is not entrant either (`Sealed`), so that nothing is left entrant behind the place where
  an invalidation stops: **everything that can be reached is out** (`invalidate_any_links`).
-/

namespace CodeVault

namespace EntryIndex

variable {index before after : EntryIndex} {id mid other head tail : EntryId} {entry : Entry}
  {marked : List EntryId}

/-! ## 1. Steps -/

/-- An invalidation as a loop: from the entry where it stands, with as many changes as were made,
    for so many steps at most. -/
def walk : Nat → EntryIndex → Option EntryId → Nat → Option (Nat × EntryIndex)
  | _, index, none, changed => some (changed, index)
  | 0, _, some _, _ => none
  | steps + 1, index, some id, changed =>
    match index.get? id with
    | none => some (changed, index)
    | some entry =>
      if entry.isEntrant then walk steps (index.leave id) entry.next (changed + 1)
      else some (changed, index)

theorem walk_of_entrant {steps changed : Nat} (hentry : index.get? id = some entry)
    (hentrant : entry.isEntrant = true) :
    walk (steps + 1) index (some id) changed =
      walk steps (index.leave id) entry.next (changed + 1) := by
  simp only [walk, hentry, hentrant, if_true]

/-- **A loop with more steps than there are entrant entries comes to its end, as the invalidation
    does**: each step leaves one entrant entry less. -/
theorem walk_of_invalidate {steps changed : Nat} (h : index.entrantCount ≤ steps) :
    walk (steps + 1) index (some id) changed =
      some (changed + (index.invalidate id).1, (index.invalidate id).2) := by
  fun_induction invalidate index id generalizing steps changed with
  | case1 index id hnone => simp only [walk, hnone, Nat.add_zero]
  | case2 index id entry hentry hentrant hnext => rw [walk_of_entrant hentry hentrant, hnext, walk]
  | case3 index id entry hentry hentrant next hnext answered after heq ih =>
    have hless := entrantCount_leave hentry hentrant
    obtain ⟨rest, rfl⟩ := Nat.exists_eq_add_one_of_ne_zero (by omega : steps ≠ 0)
    rw [walk_of_entrant hentry hentrant, hnext, ih (by omega), heq, Nat.add_right_comm,
      Nat.add_assoc]
  | case4 index id entry hentry hleft =>
    simp only [walk, hentry, hleft, Bool.false_eq_true, if_false, Nat.add_zero]

/-! ## 2. The trail of an invalidation -/

/-- An entry is there and may be entered. -/
def Entrant (index : EntryIndex) (id : EntryId) : Prop :=
  ∃ entry, index.get? id = some entry ∧ entry.isEntrant = true

/-- The entries that are reached from one by links, through entrant entries only. -/
inductive Trail (index : EntryIndex) (id : EntryId) : EntryId → Prop where
  | start (h : index.Entrant id) : Trail index id id
  | follow {mid other : EntryId} (h : Trail index id mid) (hlinks : index.Links mid (some other))
      (hentrant : index.Entrant other) : Trail index id other

theorem Trail.entrant (h : index.Trail id other) : index.Entrant other := by
  cases h with
  | start h => exact h
  | follow _ _ h => exact h

theorem Trail.entrant_start (h : index.Trail id other) : index.Entrant id := by
  induction h with
  | start h => exact h
  | follow _ _ _ ih => exact ih

theorem entrant_leave : (index.leave id).Entrant other ↔ other ≠ id ∧ index.Entrant other := by
  by_cases hsame : other = id
  · subst hsame
    refine iff_of_false ?_ fun h => h.1 rfl
    rintro ⟨entry, hentry, hentrant⟩
    simp [Entry.isEntrant, notEntrant_leave hentry] at hentrant
  · simp only [Entrant, get?_leave_of_ne hsame, ne_eq, hsame, not_false_eq_true, true_and]

theorem links_leave {next : Option EntryId} :
    (index.leave id).Links other next ↔ index.Links other next := by
  refine ⟨fun ⟨now, hnow, hnext⟩ => ?_, (evolves_leave id).links⟩
  obtain ⟨was, hwas, hbecame⟩ := (evolves_leave id).was size_stored_flag hnow
  exact ⟨was, hwas, by rw [← hnext, hbecame.same]⟩

/-- The trail from an entry without a link is this entry. -/
theorem trail_of_end (hentrant : index.Entrant id) (hend : index.Links id none) :
    index.Trail id other ↔ other = id := by
  constructor
  · intro h
    induction h with
    | start => rfl
    | follow _ hlinks _ ih =>
      subst ih
      cases hlinks.unique hend
  · rintro rfl
    exact .start hentrant

/-- **The trail from an entry goes on from its link, when the entry is out.** A trail that comes
    back to the entry, in a circle, finds it out then, and is not lost: it has passed the rest
    already. -/
theorem trail_of_link (hentrant : index.Entrant id) (hlink : index.Links id (some tail)) :
    index.Trail id other ↔ other = id ∨ (index.leave id).Trail tail other := by
  constructor
  · intro h
    induction h with
    | start => exact .inl rfl
    | @follow mid other htrail hlinks hother ih =>
      by_cases hback : other = id
      · exact .inl hback
      · have hstays : (index.leave id).Entrant other := entrant_leave.2 ⟨hback, hother⟩
        rcases ih with rfl | hon
        · cases hlinks.unique hlink
          exact .inr (.start hstays)
        · exact .inr (hon.follow (links_leave.2 hlinks) hstays)
  · rintro (rfl | h)
    · exact .start hentrant
    · induction h with
      | start h => exact (Trail.start hentrant).follow hlink (entrant_leave.1 h).2
      | follow _ hlinks hother ih =>
        exact ih.follow (links_leave.1 hlinks) (entrant_leave.1 hother).2

/-- What has become of an index in which the entries of a list were taken out, and nothing else was
    changed. -/
structure TakenOut (before : EntryIndex) (marked : List EntryId) (after : EntryIndex) : Prop where
  entries : ∀ id, after.get? id = (before.get? id).map fun entry =>
    if id ∈ marked then { entry with flags := { entry.flags with notEntrant := true } } else entry
  search : after.search = before.search
  preload : after.preload = before.preload

theorem TakenOut.refl (index : EntryIndex) : TakenOut index [] index :=
  ⟨fun _ => by simp, rfl, rfl⟩

/-- One entry more that was taken out first. -/
theorem TakenOut.cons (h : TakenOut (index.leave id) marked after) :
    TakenOut index (id :: marked) after := by
  have hkept : (index.leave id).search = index.search ∧
      (index.leave id).preload = index.preload := by
    unfold leave flag
    cases index.get? id with
    | none => exact ⟨rfl, rfl⟩
    | some entry => cases id <;> exact ⟨rfl, rfl⟩
  refine ⟨fun other => ?_, h.search.trans hkept.1, h.preload.trans hkept.2⟩
  rw [h.entries, leave, get?_flag, Option.map_map]
  refine congrArg (fun change => Option.map change (index.get? other)) (funext fun entry => ?_)
  by_cases hsame : other = id <;> by_cases hmem : other ∈ marked <;> simp [hsame, hmem]

/-- **An invalidation takes out its trail**, each entry of it once, and answers how many they
    are. -/
theorem invalidate_takes_trail (index : EntryIndex) (id : EntryId) :
    ∃ marked, marked.Nodup ∧ (∀ other, other ∈ marked ↔ index.Trail id other) ∧
      TakenOut index marked (index.invalidate id).2 ∧ (index.invalidate id).1 = marked.length := by
  fun_induction invalidate index id with
  | case1 index id hnone =>
    refine ⟨[], .nil, fun other => iff_of_false List.not_mem_nil fun htrail => ?_, .refl index, rfl⟩
    obtain ⟨entry, hentry, -⟩ := htrail.entrant_start
    cases hnone.symm.trans hentry
  | case2 index id entry hentry hentrant hnext =>
    refine ⟨[id], List.nodup_singleton id, fun other => ?_, (TakenOut.refl _).cons, rfl⟩
    rw [List.mem_singleton, trail_of_end ⟨entry, hentry, hentrant⟩ ⟨entry, hentry, hnext⟩]
  | case3 index id entry hentry hentrant next hnext answered after heq ih =>
    obtain ⟨marked, hnodup, htrail, htaken, hlength⟩ := ih
    rw [heq] at htaken hlength
    refine ⟨id :: marked, List.nodup_cons.2 ⟨fun hmem => ?_, hnodup⟩, fun other => ?_,
      htaken.cons, ?_⟩
    · exact (entrant_leave.1 ((htrail id).1 hmem).entrant).1 rfl
    · rw [List.mem_cons, htrail, trail_of_link ⟨entry, hentry, hentrant⟩ ⟨entry, hentry, hnext⟩]
    · rw [List.length_cons, ← hlength]
  | case4 index id entry hentry hleft =>
    refine ⟨[], .nil, fun other => iff_of_false List.not_mem_nil fun htrail => ?_, .refl index, rfl⟩
    obtain ⟨found, hfound, hentrant⟩ := htrail.entrant_start
    cases hentry.symm.trans hfound
    exact hleft hentrant

/-- **An invalidation that is made again changes nothing.** -/
theorem invalidate_again (index : EntryIndex) (id : EntryId) :
    (index.invalidate id).2.invalidate id = (0, (index.invalidate id).2) := by
  by_cases hthere : (index.get? id).isSome
  · exact invalidate_of_out (out_self_invalidate hthere)
  · have hnone : index.get? id = none := by simpa using hthere
    rcases invalidate_cases index id with ⟨-, hsame⟩ | ⟨found, hfound, -⟩
    · rw [hsame, hsame]
    · cases hnone.symm.trans hfound

/-! ## 3. The indices of runs -/

/-- The indices that a run comes by: it starts with none or with a loaded container, whose entries
    have no links, and adds entrant entries without links, invalidates and marks entries. -/
inductive OfRun : EntryIndex → Prop where
  | empty : OfRun .empty
  | loaded {index : EntryIndex} {entries : Array Entry} {search : Array SearchKey}
      {preload : Array UInt32}
      (h : ofLoaded entries search preload = .ok index)
      (hnext : ∀ entry ∈ entries, entry.next = none) : OfRun index
  | added {index after : EntryIndex} {entry : Entry} {id : EntryId} {arena grown : Arena}
      (h : OfRun index) (hnext : entry.next = none) (hentrant : entry.isEntrant = true)
      (hadd : index.addEntry entry arena = .ok (id, after) grown) : OfRun after
  | invalidated {index : EntryIndex} (h : OfRun index) (id : EntryId) :
      OfRun (index.invalidate id).2
  | markedLoaded {index : EntryIndex} (h : OfRun index) (id : EntryId) : OfRun (index.markLoaded id)
  | markedLoadFail {index : EntryIndex} (h : OfRun index) (id : EntryId) :
      OfRun (index.markLoadFail id)

/-- Every link leads to an entry, and to one that is out if the entry with the link is. -/
def Sealed (index : EntryIndex) : Prop :=
  ∀ ⦃head tail⦄, index.Links head (some tail) → Paired head tail index

theorem sealed_of_unlinked (h : ∀ id entry, index.get? id = some entry → entry.next = none) :
    index.Sealed := by
  rintro head tail ⟨entry, hentry, hnext⟩
  cases (h head entry hentry).symm.trans hnext

/-- An entry that is added without a link gets one only as a method without barriers, to the latest
    version. -/
theorem linked_next (hnext : entry.next = none) (h : (index.linked entry).next = some tail) :
    entry.kind = .code ∧ entry.flags.initBarriers = false ∧
      index.barrierVersion? entry.id = some tail := by
  unfold linked at h
  split at h
  · rename_i hregular
    simp only [Bool.and_eq_true, beq_iff_eq, Bool.not_eq_true'] at hregular
    exact ⟨hregular.1.1, hregular.1.2, h⟩
  · cases hnext.symm.trans h

/-- **An entrant entry that is added keeps all links closed**: the version that it is linked to,
    loaded or of this run, is there, and the entry is not out. -/
theorem Sealed.added (h : index.Sealed) (hnext : entry.next = none)
    (hentrant : entry.isEntrant = true) :
    Sealed { index with stored := index.stored.push (index.linked entry) } := by
  rintro head tail ⟨found, hfound, htail⟩
  rcases get?_push_cases hfound with hwas | ⟨rfl, rfl⟩
  · exact (h ⟨found, hwas, htail⟩).move (.added index hnext)
  · obtain ⟨hkind, hregular, hversion⟩ := linked_next hnext htail
    exact paired_added hkind hregular hnext hentrant hversion

/-- A move that adds no entry keeps all links closed. -/
theorem Sealed.move (h : before.Sealed) (hmove : Move before after)
    (hsize : after.stored.size = before.stored.size) : after.Sealed := by
  rintro head tail ⟨now, hnow, htail⟩
  obtain ⟨failing, hevolves⟩ := hmove.evolves
  obtain ⟨was, hwas, hbecame⟩ := hevolves.was hsize hnow
  have hlinks : before.Links head (some tail) := ⟨was, hwas, by rw [← htail, hbecame.same]⟩
  exact (h hlinks).move hmove

/-- **In every index that a run comes by, all links are closed.** -/
theorem OfRun.sealed (h : index.OfRun) : index.Sealed := by
  induction h with
  | empty =>
    refine sealed_of_unlinked fun id entry hentry => ?_
    cases id <;> cases hentry
  | loaded h hnext =>
    obtain ⟨-, -, rfl⟩ := ofLoaded_eq_ok.1 h
    refine sealed_of_unlinked fun id entry hentry => ?_
    cases id with
    | loaded i => exact hnext entry (Array.mem_of_getElem? hentry)
    | stored i => cases hentry
  | added _ hnext hentrant hadd ih =>
    obtain ⟨-, rfl, -⟩ := addEntry_ok hadd
    exact ih.added hnext hentrant
  | invalidated _ id ih => exact ih.move (.invalidated _ id) (size_stored_invalidate _ id)
  | markedLoaded _ id ih => exact ih.move (.markedLoaded _ id) size_stored_flag
  | markedLoadFail _ id ih => exact ih.move (.markedLoadFail _ id) size_stored_flag

/-- The entries that are reached from one by links, through whatever entries. -/
abbrev Reaches (index : EntryIndex) : EntryId → EntryId → Prop :=
  Relation.ReflTransGen fun head tail => index.Links head (some tail)

/-- Where all links are closed, everything that is reached from what is out is out. -/
theorem Sealed.out_of_reaches (h : index.Sealed) (hout : index.Out id)
    (hreaches : index.Reaches id other) :
    index.Out other := by
  induction hreaches with
  | refl => exact hout
  | tail _ hlinks ih => exact (h hlinks).out ih

/-- **An invalidation comes to its end whatever the links are, and made again changes nothing.** It
    takes out the entries that are reached from its own through entrant entries, answers how many
    they are, and changes nothing else. In an index that a run comes by, what an entry is linked to
    is out if the entry is; there nothing that can be reached at all is left entrant. -/
theorem invalidate_any_links :
    (∀ (index : EntryIndex) (id : EntryId),
      (∀ steps, index.entrantCount < steps →
        walk steps index (some id) 0 = some (index.invalidate id)) ∧
      (∃ marked, marked.Nodup ∧ (∀ other, other ∈ marked ↔ index.Trail id other) ∧
        TakenOut index marked (index.invalidate id).2 ∧ (index.invalidate id).1 = marked.length) ∧
      (index.invalidate id).2.invalidate id = (0, (index.invalidate id).2)) ∧
    ∀ index : EntryIndex, index.OfRun →
      (∀ head tail, index.Links head (some tail) → index.Out head → index.Out tail) ∧
      ∀ id other entry, index.Reaches id other → (index.invalidate id).2.get? other = some entry →
        entry.isEntrant = false := by
  refine ⟨fun index id => ⟨fun steps hsteps => ?_, invalidate_takes_trail index id,
    invalidate_again index id⟩,
    fun index hrun => ⟨fun head tail hlinks => (hrun.sealed hlinks).out,
      fun id other entry hreaches hentry => ?_⟩⟩
  · obtain ⟨rest, rfl⟩ := Nat.exists_eq_add_one_of_ne_zero (Nat.ne_zero_of_lt hsteps)
    rw [walk_of_invalidate (Nat.le_of_lt_succ hsteps), Nat.zero_add]
  · have hsealed := (hrun.invalidated id).sealed
    have hkept : (index.invalidate id).2.Reaches id other :=
      hreaches.lift (fun a => a) fun _ _ hlinks => (evolves_invalidate index id).links hlinks
    have hthere : (index.get? id).isSome := by
      rcases hreaches.cases_head with rfl | ⟨_, ⟨found, hfound, -⟩, -⟩
      · obtain ⟨was, hwas, -⟩ :=
          (evolves_invalidate index id).was (size_stored_invalidate index id) hentry
        exact Option.isSome_iff_exists.2 ⟨was, hwas⟩
      · exact Option.isSome_iff_exists.2 ⟨found, hfound⟩
    obtain ⟨found, hfound, hleft⟩ := hsealed.out_of_reaches (out_self_invalidate hthere) hkept
    cases hfound.symm.trans hentry
    exact hleft

/-! An example: two entries that are linked to each other beside one whose link leads nowhere; and a
method of this run behind which a loaded version stands. -/

/-- Two entries that are linked in a circle, and one whose link leads nowhere. -/
def circle : EntryIndex :=
  { EntryIndex.empty with
    loaded := #[{ Entry.blank .code 7 with next := some (.loaded 1) },
      { Entry.blank .code 8 with next := some (.loaded 0) },
      { Entry.blank .code 9 with next := some (.stored 5) }] }

/-- A version with barriers, as it is loaded. -/
def loadedVersion : Entry :=
  { Entry.blank .code 7 with flags := { EntryFlags.none with initBarriers := true } }

/-- The index over a container with this version. -/
def oneVersion : EntryIndex := ⟨#[loadedVersion], #[⟨7, 0⟩], #[], #[]⟩

/-- The index when the method was added. -/
def spanning : EntryIndex :=
  { oneVersion with stored := #[{ Entry.blank .code 7 with next := some (.loaded 0) }] }

theorem invalidate_any_links_spanning :
    (circle.invalidate (.loaded 0)).1 = 2 ∧
    (circle.invalidate (.loaded 0)).2.invalidate (.loaded 0) =
      (0, (circle.invalidate (.loaded 0)).2) ∧
    spanning.OfRun ∧
    (spanning.invalidate (.stored 0)).2.Out (.loaded 0) ∧
    ∃ entry, (spanning.invalidate (.stored 0)).2.get? (.loaded 0) = some entry ∧
      entry.isEntrant = false := by
  obtain ⟨hloop, -, hagain⟩ := invalidate_any_links.1 circle (.loaded 0)
  have hcount : some (circle.invalidate (.loaded 0)) = walk 4 circle (some (.loaded 0)) 0 :=
    (hloop 4 (by decide)).symm
  have hopened : oneVersion.OfRun :=
    .loaded (show ofLoaded #[loadedVersion] #[⟨7, 0⟩] #[] = .ok oneVersion from rfl)
      fun entry hmem => by
      rw [List.mem_singleton.1 (Array.mem_toList_iff.2 hmem)]
      rfl
  have hadd : oneVersion.addEntry (Entry.blank .code 7) (.ofCapacity 256) =
      .ok (.stored 0, spanning) { Arena.ofCapacity 256 with tail := Entry.encodedSize } := by rfl
  have hrun : spanning.OfRun := hopened.added rfl rfl hadd
  have hlinks : spanning.Links (.stored 0) (some (.loaded 0)) := ⟨_, rfl, rfl⟩
  have hversion : spanning.get? (.loaded 0) = some loadedVersion := rfl
  obtain ⟨now, hnow, -⟩ := (evolves_invalidate spanning (.stored 0)).entries hversion
  refine ⟨congrArg Prod.fst (Option.some.inj hcount), hagain, hrun, ?_, now, hnow, ?_⟩
  · exact (invalidate_any_links.2 _ (hrun.invalidated (.stored 0))).1 (.stored 0) (.loaded 0)
      ((evolves_invalidate spanning (.stored 0)).links hlinks) (out_self_invalidate rfl)
  · exact (invalidate_any_links.2 spanning hrun).2 (.stored 0) (.loaded 0) now (.single hlinks) hnow

end EntryIndex

end CodeVault
