import CodeVault.Proofs.Index.Placed
import CodeVault.Proofs.Session.Ended

/-!
# What is answered for installation

A container lists entries that are to be installed before their first call. When the list is asked
for, each place of it whose entry may be entered is answered; nothing asks again what the entry is,
whether it was listed before, or whether it has failed to load.

* the list is that of the container throughout a run (`EntryIndex.preload_of_moves`), so that **an
  entry is answered as often as the container lists it, as long as it may be entered**
  (`count_preloadEntries`);
* a container that a session left when it was closed lists its preload code, each place once
  (`preload_of_close`, `nodup_listed`);
* **what is answered is preload code, and is answered once, exactly if the container lists it so and
  none of it has failed to load** (`preloads_iff`).
-/

namespace CodeVault

open EntryIndex Session

/-! ## 1. The list of an index -/

namespace EntryIndex

variable {index before after : EntryIndex} {id : EntryId} {entry : Entry}

/-- The entries that are listed for installation before their first call. -/
def listed (index : EntryIndex) : List EntryId :=
  index.preload.toList.map fun place => .loaded place.toNat

/-- Whether an entry is what the list is meant for: compiled code, flagged for it. -/
def marks (index : EntryIndex) (id : EntryId) : Bool :=
  (index.get? id).any fun entry => entry.kind == .code && entry.flags.forPreload

theorem marks_eq_true : index.marks id = true ↔
    ∃ entry, index.get? id = some entry ∧ entry.kind = .code ∧ entry.flags.forPreload = true := by
  simp only [marks, Option.any_eq_true, Bool.and_eq_true, beq_iff_eq]

theorem loaded_of_mem_listed (h : id ∈ index.listed) : ∃ i, id = .loaded i := by
  obtain ⟨place, -, rfl⟩ := List.mem_map.1 h
  exact ⟨place.toNat, rfl⟩

theorem preload_put : (index.put id entry).preload = index.preload := by
  cases id <;> rfl

theorem preload_flag {f : EntryFlags → EntryFlags} : (index.flag id f).preload = index.preload := by
  unfold flag
  split
  · exact preload_put
  · rfl

theorem preload_invalidate (index : EntryIndex) (id : EntryId) :
    (index.invalidate id).2.preload = index.preload := by
  fun_induction invalidate index id with
  | case1 => rfl
  | case2 => exact preload_flag
  | case3 index id entry _ _ next _ changed after heq ih =>
    rw [heq] at ih
    exact ih.trans preload_flag
  | case4 => rfl

theorem Move.preload (h : Move before after) : after.preload = before.preload := by
  cases h with
  | added => rfl
  | invalidated => exact preload_invalidate before _
  | markedLoaded => exact preload_flag
  | markedLoadFail => exact preload_flag

/-- **The list stays as it is**, whatever is added, marked or invalidated. -/
theorem preload_of_moves (h : Moves before after) : after.preload = before.preload := by
  induction h with
  | refl => rfl
  | tail _ hmove ih => rw [hmove.preload, ih]

end EntryIndex

/-! ## 2. What is answered -/

namespace Session

variable {session : Session} {id : EntryId}

/-- Whether the list is honoured: by the policy, in a session that is enabled and has its
    container. -/
def honours (session : Session) : Bool :=
  session.config.preload && !session.failed && session.container.isSome

/-- Whether an entry is answered when it is listed: the list is honoured, and the entry may be
    entered. -/
def offers (session : Session) (id : EntryId) : Bool :=
  session.honours && (session.entry? id).any (·.isEntrant)

theorem offers_eq_true : session.offers id = true ↔
    session.honours = true ∧ ∃ entry, session.entry? id = some entry ∧ entry.isEntrant = true := by
  rw [offers, Bool.and_eq_true, Option.any_eq_true]

/-- The answer is the listed entries that are offered. -/
theorem preloadEntries_eq (session : Session) :
    session.preloadEntries = session.index.listed.filter session.offers := by
  have hshut : (!session.config.preload || session.failed || session.container.isNone) =
      !session.honours := by
    rw [honours, Bool.not_and, Bool.not_and, Bool.not_not, Option.not_isSome]
  rw [preloadEntries, hshut]
  cases hhonours : session.honours with
  | false =>
    symm
    exact List.filter_eq_nil_iff.2 fun id _ hoffers => by simp [offers, hhonours] at hoffers
  | true =>
    exact List.filter_congr fun id _ => by simp only [offers, hhonours, Bool.true_and, entry?]

theorem mem_preloadEntries :
    id ∈ session.preloadEntries ↔ id ∈ session.index.listed ∧ session.offers id = true := by
  rw [preloadEntries_eq, List.mem_filter]

/-- **An entry is answered as often as it is listed, or not at all.** -/
theorem count_preloadEntries (session : Session) (id : EntryId) :
    session.preloadEntries.count id = if session.offers id then
      session.index.listed.count id else 0 := by
  rw [preloadEntries_eq]
  split
  · rename_i hoffers
    exact List.count_filter hoffers
  · rename_i hoffers
    exact List.count_eq_zero.2 fun hmem => hoffers (List.mem_filter.1 hmem).2

end Session

/-! ## 3. The list of a container that a session left -/

namespace Merged

variable {start : Nat} {entries placed : List Entry}

/-- Which places are listed is a matter of the kinds and the flags of the entries. -/
theorem preloadPlaces_congr
    (h : List.Forall₂ (fun entry other => entry.kind = other.kind ∧ entry.flags = other.flags)
      entries placed) :
    preloadPlaces entries = preloadPlaces placed := by
  unfold preloadPlaces
  generalize 0 = start
  induction h generalizing start with
  | nil => rfl
  | @cons entry other entries placed hsame _ ih =>
    simp only [List.zipIdx_cons, List.filter_cons, hsame.1, hsame.2]
    split
    · rw [List.map_cons, List.map_cons]
      exact congrArg _ (ih (start + 1))
    · exact ih (start + 1)

/-- A merge lists its preload code. -/
theorem preload_of_merge {index : EntryIndex} {image arena : Bytes} {merged : Merged}
    (h : index.merge image arena = .ok merged) :
    merged.preload.toList = preloadPlaces merged.entries.toList := by
  obtain ⟨all, hall, rfl⟩ := foldlM_of_merge h
  have haligned : empty.payload.size % dataAlignment = 0 := rfl
  rcases foldlM_cases haligned (index.items image arena) with
    ⟨after, hafter, htook, -⟩ | ⟨⟨cause, hno⟩, -⟩
  · cases hafter.symm.trans hall
    exact (htook.tables ⟨rfl, rfl⟩).preload
  · cases hno.symm.trans hall

end Merged

namespace EntryIndex

variable {index : EntryIndex}

/-- **A list of all preload code has each of it once, and nothing else.** -/
theorem listed_of_preloadPlaces (hfew : index.loaded.size < wordSpace)
    (hpreload : index.preload.toList = Merged.preloadPlaces index.loaded.toList) :
    index.listed.Nodup ∧ ∀ id ∈ index.listed, index.marks id = true := by
  rw [← Array.length_toList] at hfew
  rw [listed, hpreload]
  constructor
  · have hplaces : (Merged.preloadPlaces index.loaded.toList).Nodup :=
      (Merged.pairwise_preloadPlaces hfew).imp fun hlt => UInt32.ne_of_lt hlt
    exact hplaces.map fun place other hsame => UInt32.toNat_inj.1 (EntryId.loaded.inj hsame)
  · intro id hmem
    obtain ⟨place, hplace, rfl⟩ := List.mem_map.1 hmem
    obtain ⟨⟨entry, i⟩, hrow, rfl⟩ := List.mem_map.1 hplace
    obtain ⟨hat, hmarked⟩ := List.mem_filter.1 hrow
    have hentry : index.loaded.toList[i]? = some entry := List.mem_zipIdx_iff_getElem?.1 hat
    have hlt : i < index.loaded.toList.length := (List.getElem?_eq_some_iff.1 hentry).1
    have hplaced : (UInt32.ofNat i).toNat = i := toNat_ofNat_of_lt_wordSpace (Nat.lt_trans hlt hfew)
    rw [Array.getElem?_toList] at hentry
    simp only [marks, get?, hplaced, hentry]
    exact hmarked

end EntryIndex

/-- A container is that of a session: a session has put it at its store path when it was closed. -/
def Container.OfSession (container : Container) : Prop :=
  ∃ session symbols time files path closing image,
    Session.close symbols time ⟨session, files⟩ = .ok (some path) closing ∧
    closing.files.map path = .ok image ∧ Container.ofBytes image = .ok container

/-- **The container of a session lists its preload code.** -/
theorem Container.OfSession.preload {container : Container} {index : EntryIndex}
    (h : container.OfSession) (hindex : container.loadIndex = .ok index) :
    index.preload.toList = Merged.preloadPlaces index.loaded.toList := by
  obtain ⟨session, symbols, time, files, path, closing, image, hclose, hfile, haccepted⟩ := h
  obtain ⟨arena, merged, image', header, entries, hwritten⟩ := Session.written_of_close hclose
  cases hwritten.file.symm.trans hfile
  obtain rfl := hwritten.laid.eq_of_ofBytes haccepted
  obtain ⟨keys, hsorted⟩ := hwritten.sorted
  cases (hwritten.laid.loadIndex_ok hwritten.holds hsorted).symm.trans hindex
  rw [Merged.preload_of_merge hwritten.finalizes.merge]
  refine Merged.preloadPlaces_congr (hwritten.laid.entries.imp fun entry placed hplaced => ?_)
  obtain ⟨-, rfl⟩ := hplaced
  exact ⟨rfl, rfl⟩

/-- The list of a session that was started on such a container. -/
theorem Session.listed_of_container {config : Config} {fingerprint : Fingerprint}
    {known symbols : SymbolTable} {opened : Session} {container : Container}
    (h : Opened config fingerprint known opened symbols)
    (hcontainer : opened.container = some container) (hleft : container.OfSession) :
    opened.index.listed.Nodup ∧ ∀ id ∈ opened.index.listed, opened.index.marks id = true := by
  rcases h.source with ⟨hnone, -⟩ | ⟨found, strings, hfound, hindex, -⟩
  · cases hnone.symm.trans hcontainer
  · cases hfound.symm.trans hcontainer
    obtain ⟨-, hentries⟩ := stored_of_loadIndex hindex
    have hfew := (Container.fresh_of_entries hentries).1
    rw [Array.length_toList] at hfew
    exact listed_of_preloadPlaces hfew (hleft.preload hindex)

/-! ## 4. Runs -/

namespace History

/-- An entry is one that can be installed before its first call: it was loaded, it is compiled code
    that is flagged for it and may be entered, and no load of it has failed in the run. -/
structure Installable (history : History) (id : EntryId) : Prop where
  loaded : ∃ i, id = .loaded i
  code : ∃ entry, history.session.entry? id = some entry ∧ entry.kind = .code ∧
    entry.flags.forPreload = true ∧
    entry.isEntrant = true
  unfailed : id ∉ history.failures

/-- What a session answers can be installed, and is answered once. -/
structure Preloads (history : History) : Prop where
  installable : ∀ id ∈ history.session.preloadEntries, history.Installable id
  once : history.session.preloadEntries.Nodup

/-- A loaded entry of a faithful history became what it is from what was loaded. -/
theorem Faithful.became_loaded {history : History} (h : history.Faithful) {i : Nat} {now : Entry}
    (hnow : history.session.entry? (.loaded i) = some now) :
    ∃ entry, history.opened.entry? (.loaded i) = some entry ∧ entry.Became now := by
  have hlt : i < history.opened.index.loaded.size :=
    h.loaded ▸ (Array.getElem?_eq_some_iff.1 hnow).1
  have horigin : (⟨history.opened, .loaded i⟩ : Origin) ∈ history.origins :=
    List.mem_append_left _ (List.mem_map.2 ⟨i, List.mem_range.2 hlt, rfl⟩)
  obtain ⟨entry, found, -, hentry, hfound, hbecame, -⟩ := h.keeps _ horigin
  cases hfound.symm.trans hnow
  exact ⟨entry, hentry, hbecame⟩

/-- **What is answered can be installed exactly if the container marks it so and its load has not
    failed.** -/
theorem Faithful.installable_iff {history : History} (h : history.Faithful) {id : EntryId}
    (hmem : id ∈ history.session.preloadEntries) :
    history.Installable id ↔ history.opened.index.marks id = true ∧ id ∉ history.failures := by
  obtain ⟨hlisted, hoffers⟩ := mem_preloadEntries.1 hmem
  obtain ⟨i, rfl⟩ := loaded_of_mem_listed hlisted
  obtain ⟨-, now, hnow, hentrant⟩ := offers_eq_true.1 hoffers
  obtain ⟨entry, hentry, hbecame⟩ := h.became_loaded hnow
  have hkind : now.kind = entry.kind := by rw [hbecame.same]
  rw [marks_eq_true]
  constructor
  · rintro ⟨-, ⟨found, hfound, hcode, hflag, -⟩, hunfailed⟩
    cases hfound.symm.trans hnow
    exact ⟨⟨entry, hentry, hkind ▸ hcode, hbecame.forPreload ▸ hflag⟩, hunfailed⟩
  · rintro ⟨⟨found, hfound, hcode, hflag⟩, hunfailed⟩
    cases hfound.symm.trans hentry
    exact ⟨⟨i, rfl⟩, ⟨now, hnow, hkind.trans hcode, hbecame.forPreload.trans hflag, hentrant⟩,
      hunfailed⟩

end History

namespace Session

variable {files : FileStore} {config : Config} {fingerprint : Fingerprint}
  {known symbols : SymbolTable} {opened : Session} {id : EntryId}

/-- The list of a run is that of the container. -/
theorem listed_history (opened : Session) (calls : List (LiveProcess × Call)) :
    (opened.history calls).session.index.listed = opened.index.listed := by
  simp only [listed, preload_of_moves (moves_index (moves_history opened calls))]

theorem count_history (opened : Session) (calls : List (LiveProcess × Call)) (id : EntryId) :
    (opened.history calls).session.preloadEntries.count id =
      if (opened.history calls).session.offers id then opened.index.listed.count id else 0 := by
  rw [count_preloadEntries, listed_history]

/-- **What is answered in a run is right exactly if the container lists each of it once and marks
    it, and no load of it has failed.** -/
theorem preloads_history (hopened : Opened config fingerprint known opened symbols)
    (calls : List (LiveProcess × Call)) :
    (opened.history calls).Preloads ↔ ∀ id ∈ (opened.history calls).session.preloadEntries,
      opened.index.listed.count id = 1 ∧ opened.index.marks id = true ∧
        id ∉ (opened.history calls).failures := by
  have hfaithful := hopened.faithful calls
  have hinstallable : ∀ id ∈ (opened.history calls).session.preloadEntries,
      (opened.history calls).Installable id ↔
      opened.index.marks id = true ∧ id ∉ (opened.history calls).failures := by
    intro id hmem
    have hiff := hfaithful.installable_iff hmem
    rwa [opened_history] at hiff
  have hcount : ∀ id ∈ (opened.history calls).session.preloadEntries,
      (opened.history calls).session.preloadEntries.count id = opened.index.listed.count id := by
    intro id hmem
    rw [count_history, if_pos (mem_preloadEntries.1 hmem).2]
  constructor
  · rintro ⟨hall, honce⟩ id hmem
    refine ⟨?_, (hinstallable id hmem).1 (hall id hmem)⟩
    rw [← hcount id hmem]
    exact List.count_eq_one_of_mem honce hmem
  · intro hright
    refine ⟨fun id hmem => (hinstallable id hmem).2 (hright id hmem).2, ?_⟩
    refine List.nodup_iff_count_eq_one.2 fun id hmem => ?_
    rw [hcount id hmem]
    exact (hright id hmem).1

/-- **What a session answers for installation is what its container lists and what may be entered,
    and no more is asked.** In a run an entry is answered as often as the container lists it, as
    long as the list is honoured and the entry may be entered. So what is answered is compiled code
    that is flagged for installation, may be entered and has not failed to load, each entry once,
    exactly if the container lists each of the entries answered once and marks it, and none of them
    has failed to load; for a container that a session left when it was closed, exactly if none has
    failed. A session that is closed answers nothing. -/
theorem preloads_iff (hstart : Session.start files config fingerprint known =
      .ok (opened, symbols)) :
    (∀ calls id, (opened.history calls).session.preloadEntries.count id =
      if (opened.history calls).session.offers id then opened.index.listed.count id else 0) ∧
    (∀ calls, (opened.history calls).Preloads ↔
      ∀ id ∈ (opened.history calls).session.preloadEntries, opened.index.listed.count id = 1 ∧
        opened.index.marks id = true ∧ id ∉ (opened.history calls).failures) ∧
    (∀ container, opened.container = some container → container.OfSession → ∀ calls,
      (opened.history calls).Preloads ↔
        ∀ id ∈ (opened.history calls).session.preloadEntries,
          id ∉ (opened.history calls).failures) ∧
    ∀ now, opened.Moves now → now.state = .closed → now.preloadEntries = [] := by
  have hopened := opened_of_start hstart
  refine ⟨count_history opened, preloads_history hopened, ?_, ?_⟩
  · intro container hcontainer hleft calls
    obtain ⟨hnodup, hmarks⟩ := listed_of_container hopened hcontainer hleft
    rw [preloads_history hopened]
    refine forall₂_congr fun id hmem => ?_
    have hlisted : id ∈ opened.index.listed :=
      listed_history opened calls ▸ (mem_preloadEntries.1 hmem).1
    simp only [List.count_eq_one_of_mem hnodup hlisted, hmarks id hlisted, true_and]
  · intro now hmoves hclosed
    exact (ended_of_closed hclosed (shut_of_moves hmoves (shut_of_start hstart))).preload

/-! Examples: a container that lists a stub twice, and the empty method of a container after it
failed to load. -/

/-- The container of one method, with the method made a stub, whose list is one place longer. -/
def twiceListed : Container where
  bytes := (preloadImage.overwrite 112 (Bytes.ofU32 2)).overwrite 44 (Bytes.ofU32 2)
  header := { preloadContainer.header with preload := ⟨2, 96⟩ }

/-- A session that was started on it. -/
def listingTwice : Session :=
  { updated with
    container := some twiceListed
    index := ⟨#[{ preloadMethod with kind := .stub, offset := 168 }], #[⟨7, 0⟩], #[0, 0], #[]⟩ }

theorem start_listingTwice :
    Session.start (fileAtApp twiceListed.bytes) updating plain idle = .ok (listingTwice, idle) := by
  have hheader : Header.decode twiceListed.bytes = .ok twiceListed.header := by decide +kernel
  have hindex : twiceListed.loadIndex = .ok listingTwice.index := by decide +kernel
  have hstrings : twiceListed.strings = .ok [] := by decide +kernel
  exact start_at_app twiceListed hheader rfl hindex hstrings

/-- The method is loaded, which fails. -/
def failing : List (LiveProcess × Call) := [(Context.internedOnce, .load (.loaded 0))]

theorem preloads_iff_listed :
    (Session.start (fileAtApp twiceListed.bytes) updating plain idle = .ok (listingTwice, idle) ∧
      (listingTwice.history []).session.preloadEntries = [.loaded 0, .loaded 0] ∧
      ¬ (listingTwice.history []).Preloads) ∧
    Session.start (fileAtApp preloadImage) updating plain idle = .ok (updated, idle) ∧
      (updated.history failing).session.preloadEntries = [.loaded 0] ∧
      ¬ (updated.history failing).Preloads := by
  have htwice : (listingTwice.history []).session.preloadEntries = [.loaded 0, .loaded 0] := by
    decide +kernel
  obtain ⟨hagain, hfailure⟩ : (updated.history failing).session.preloadEntries = [.loaded 0] ∧
      .loaded 0 ∈ (updated.history failing).failures := by
    decide +kernel
  refine ⟨⟨start_listingTwice, htwice, fun hright => ?_⟩, start_updating, hagain, fun hright => ?_⟩
  · have hmem : .loaded 0 ∈ (listingTwice.history []).session.preloadEntries :=
      htwice ▸ List.mem_cons_self
    have honce := (((preloads_iff start_listingTwice).2.1 []).1 hright (.loaded 0) hmem).1
    exact absurd honce (by decide)
  · have hmem : .loaded 0 ∈ (updated.history failing).session.preloadEntries :=
      hagain ▸ List.mem_cons_self
    exact (((preloads_iff start_updating).2.1 failing).1 hright (.loaded 0) hmem).2.2 hfailure

end Session

end CodeVault
