import CodeVault.Proofs.Container.ReadBack
import CodeVault.Proofs.FileStore
import CodeVault.Proofs.Session.Runs

/-!
# What a session leaves when it is closed

* `Finalizes`: a session that writes at its end merges its entries and puts the container of the
  merge at its store path; if nothing survives, nothing is written (`leave_ok`);
* the items of the merge are the entries of the history, in their order (`shows_items`), so that
  **the entries of the container that is written carry the survivors of the history**
  (`carries_survivors`).
-/

namespace CodeVault

open Bytes

/-! ## 1. Closing -/

namespace Session

/-- The bytes that the offsets of loaded entries count in. -/
def image (session : Session) : Bytes := (session.container.map (·.bytes)).getD #[]

/-- A session that writes at its end: its arena, and the merge of its entries. -/
structure Finalizes (session : Session) (path : String) (arena : Arena)
    (merged : Merged) : Prop where
  enabled : session.failed = false
  writes : session.arena = some arena
  path : session.config.storePath = some path
  merge : session.index.merge session.image arena.bytes = .ok merged

/-- Closing a session that is open is leaving it. -/
theorem leave_of_close {session : Session} {symbols : SymbolTable} {now : UInt64}
    {files : FileStore} {result : Option String} {closing : Closing}
    (hopen : session.state ≠ .closed)
    (h : close symbols now ⟨session, files⟩ = .ok result closing) :
    session.leave symbols now files = (.ok result, closing.files) := by
  rcases hleave : session.leave symbols now files with ⟨outcome, left⟩
  simp only [close, hopen, if_false, hleave] at h
  cases outcome with
  | ok path =>
    cases h
    rfl
  | error cause =>
    simp only at h
    split at h <;> cases h

/-- The bytes that a session that writes leaves at its end, if anything survives. -/
def finalBytes? (session : Session) (strings : List CText) (now : UInt64) : Option Bytes :=
  match session.failed, session.arena with
  | false, some arena => (session.finalImage arena strings now).toOption.join
  | _, _ => none

theorem of_finalBytes? {session : Session} {strings : List CText} {now : UInt64} {image : Bytes}
    (h : session.finalBytes? strings now = some image) :
    ∃ arena, session.failed = false ∧ session.arena = some arena ∧
      session.finalImage arena strings now = .ok (some image) := by
  unfold finalBytes? at h
  split at h
  · rename_i arena henabled hwrites
    exact ⟨arena, henabled, hwrites, toOption_eq_some.1 (Option.join_eq_some_iff.1 h)⟩
  · cases h

/-- What closing a session that writes comes to when there is something to write. -/
theorem close_of_some {session : Session} {symbols : SymbolTable} {now : UInt64}
    {files after : FileStore} {path : String} {arena : Arena} {image : Bytes}
    (hopen : session.state ≠ .closed) (henabled : session.failed = false)
    (hwrites : session.arena = some arena) (hpath : session.config.storePath = some path)
    (hfinal : session.finalImage arena symbols.strings.texts now = .ok (some image))
    (hpersist : persist path image files = (.ok (), after)) :
    close symbols now ⟨session, files⟩ = .ok (some path)
      ⟨{ session with container := none, arena := none, state := .closed }, after⟩ := by
  have hleave : session.leave symbols now files = (.ok (some path), after) := by
    simp only [leave, hwrites, henabled, Bool.false_eq_true, if_false, finalize, hpath,
      hfinal, hpersist]
  simp only [close, hopen, if_false, hleave]

/-- Closing a session that has something to write ends well only if the files take it. -/
theorem persist_of_close {session : Session} {symbols : SymbolTable} {now : UInt64}
    {files : FileStore} {path : String} {arena : Arena} {image : Bytes} {result : Option String}
    {closing : Closing} (hopen : session.state ≠ .closed) (henabled : session.failed = false)
    (hwrites : session.arena = some arena) (hpath : session.config.storePath = some path)
    (hfinal : session.finalImage arena symbols.strings.texts now = .ok (some image))
    (h : close symbols now ⟨session, files⟩ = .ok result closing) :
    result = some path ∧ persist path image files = (.ok (), closing.files) := by
  have hleave := leave_of_close hopen h
  simp only [leave, hwrites, henabled, Bool.false_eq_true, if_false, finalize, hpath, hfinal]
    at hleave
  rcases hpersist : persist path image files with ⟨outcome, left⟩
  rw [hpersist] at hleave
  cases outcome with
  | ok done =>
    cases hleave
    exact ⟨rfl, rfl⟩
  | error cause => cases hleave

/-- What closing a session that writes comes to when there is nothing to write. -/
theorem close_of_none {session : Session} {symbols : SymbolTable} {now : UInt64} {files : FileStore}
    {path : String} {arena : Arena} (hopen : session.state ≠ .closed)
    (henabled : session.failed = false) (hwrites : session.arena = some arena)
    (hpath : session.config.storePath = some path)
    (hfinal : session.finalImage arena symbols.strings.texts now = .ok none) :
    close symbols now ⟨session, files⟩ = .ok none
      ⟨{ session with container := none, arena := none, state := .closed }, files⟩ := by
  have hleave : session.leave symbols now files = (.ok none, files) := by
    simp only [leave, hwrites, henabled, Bool.false_eq_true, if_false, finalize, hpath, hfinal]
  simp only [close, hopen, if_false, hleave]

/-- The container that a session leaves is that of its merge, if there are any entries in it. -/
theorem finalImage_ok {session : Session} {arena : Arena} {strings : List CText} {now : UInt64}
    {final : Option Bytes} (h : session.finalImage arena strings now = .ok final) :
    ∃ merged, session.index.merge session.image arena.bytes = .ok merged ∧
      ((final = none ∧ merged.entries = #[]) ∨ ∃ image, final = some image ∧
        Container.build strings merged session.fingerprint now = .ok image) := by
  obtain ⟨merged, hmerge, h⟩ := except_bind_eq_ok.1 h
  refine ⟨merged, hmerge, ?_⟩
  by_cases hempty : merged.entries.isEmpty = true
  · simp only [hempty, if_true] at h
    cases h
    exact .inl ⟨rfl, Array.isEmpty_iff.1 hempty⟩
  · simp only [hempty] at h
    obtain ⟨image, himage, hdone⟩ := except_bind_eq_ok.1 h
    cases hdone
    exact .inr ⟨image, rfl, himage⟩

/-- Nothing is left of a merge in which nothing is kept. -/
theorem finalImage_of_empty {session : Session} {arena : Arena} {merged : Merged}
    (hmerge : session.index.merge session.image arena.bytes = .ok merged)
    (hempty : merged.entries = #[]) (strings : List CText) (now : UInt64) :
    session.finalImage arena strings now = .ok none := by
  refine except_bind_eq_ok.2 ⟨merged, hmerge, ?_⟩
  rw [hempty]
  rfl

/-- What is left of a merge in which something is kept. -/
theorem finalImage_of_build {session : Session} {arena : Arena} {merged : Merged}
    {strings : List CText} {now : UInt64} {image : Bytes}
    (hmerge : session.index.merge session.image arena.bytes = .ok merged)
    (hkept : merged.entries ≠ #[])
    (hbuild : Container.build strings merged session.fingerprint now = .ok image) :
    session.finalImage arena strings now = .ok (some image) := by
  refine except_bind_eq_ok.2 ⟨merged, hmerge, ?_⟩
  have hsome : merged.entries.isEmpty = false := by simpa using hkept
  simp only [hsome, Bool.false_eq_true, if_false]
  exact except_bind_eq_ok.2 ⟨image, hbuild, rfl⟩

/-- What leaving a session comes to when it ends well: with a path, the container of the merge has
    been put there; without one, the session does not write or nothing survives, and the files are
    as they were. -/
theorem leave_ok {session : Session} {symbols : SymbolTable} {now : UInt64}
    {files after : FileStore} {result : Option String}
    (h : session.leave symbols now files = (.ok result, after)) :
    (∃ path arena merged image, result = some path ∧ session.Finalizes path arena merged ∧
      Container.build symbols.strings.texts merged session.fingerprint now = .ok image ∧
      after.map path = .ok image) ∨
    (result = none ∧ after = files ∧ ∀ arena path, session.failed = false →
      session.arena = some arena →
      session.config.storePath = some path → ∃ merged, session.Finalizes path arena merged ∧
        merged.entries = #[]) := by
  obtain hwrites | ⟨arena, hwrites⟩ := Option.eq_none_or_eq_some session.arena
  · simp only [leave, hwrites] at h
    cases h
    exact .inr ⟨rfl, rfl, fun arena path _ harena _ => nomatch hwrites.symm.trans harena⟩
  by_cases hfailed : session.failed = true
  · simp only [leave, hwrites, hfailed, if_true] at h
    cases h
    exact .inr ⟨rfl, rfl, fun arena path henabled _ _ => nomatch hfailed.symm.trans henabled⟩
  have henabled : session.failed = false := by simpa using hfailed
  obtain hpath | ⟨path, hpath⟩ := Option.eq_none_or_eq_some session.config.storePath
  · simp only [leave, hwrites, henabled, finalize, hpath] at h
    cases h
    exact .inr ⟨rfl, rfl, fun arena path _ _ hstore => nomatch hpath.symm.trans hstore⟩
  simp only [leave, hwrites, henabled, finalize, hpath] at h
  cases hfinal : session.finalImage arena symbols.strings.texts now with
  | error cause =>
    simp only [hfinal] at h
    cases h
  | ok final =>
    simp only [hfinal] at h
    obtain ⟨merged, hmerge, ⟨rfl, hempty⟩ | ⟨image, rfl, hbuild⟩⟩ := finalImage_ok hfinal
    · cases h
      refine .inr ⟨rfl, rfl, fun other path' _ hother hpath' => ⟨merged, ?_, hempty⟩⟩
      cases hwrites.symm.trans hother
      exact ⟨henabled, hwrites, hpath', hmerge⟩
    · simp only [Bool.false_eq_true, if_false] at h
      rcases hpersist : persist path image files with ⟨outcome, left⟩
      rw [hpersist] at h
      cases outcome with
      | error cause => cases h
      | ok done =>
        cases h
        exact .inl ⟨path, arena, merged, image, rfl, ⟨henabled, hwrites, hpath, hmerge⟩, hbuild,
          map_persist hpersist⟩

end Session

/-! ## 2. The entries of a history and the items of a merge -/

/-- What an entry became is kept as what the entry itself would be kept as. -/
theorem Entry.Became.keptAs {entry now kept : Entry} (h : entry.Became now)
    (hkept : now.KeptAs kept) :
    entry.KeptAs kept := by
  unfold Entry.KeptAs at hkept ⊢
  rw [hkept, h.same, h.forPreload, h.initBarriers, h.ignoreDecompile]

/-- An entry of a container carries on an entry of a history: the entry is kept as it came about,
    with the bytes that it had then. -/
def Origin.CarriedBy (container : Container) (origin : Origin) (entry : Entry) : Prop :=
  ∃ first bytes, origin.session.entry? origin.id = some first ∧
    origin.session.payload? origin.id first = some bytes ∧ first.KeptAs entry ∧
    container.payload entry = .ok bytes

/-- An item of a merge is what a session shows under an id. -/
def Session.Shows (session : Session) (id : EntryId) (item : Item) : Prop :=
  session.entry? id = some item.entry ∧
    ∀ bytes, session.payload? id item.entry = some bytes → item.payload? = some bytes

/-- What a session reads of a loaded entry is in the bytes that the offsets of loaded entries count
    in. -/
theorem Session.slice?_of_loaded {session : Session} {i : Nat} {entry : Entry} {bytes : Bytes}
    (h : session.payload? (.loaded i) entry = some bytes) :
    session.image.slice? entry.offset.toNat entry.size.toNat = some bytes := by
  obtain ⟨container, hcontainer, hread⟩ := payload?_loaded.1 h
  unfold Container.payload Bytes.readAt at hread
  rw [image, hcontainer]
  split at hread
  · rename_i hslice
    cases hread
    exact hslice
  · cases hread

/-- **The items of a merge are what a session shows under its ids**, loaded entries first. -/
theorem Session.shows_items {session : Session} {arena : Arena}
    (harena : session.arena = some arena) :
    List.Forall₂ session.Shows
      ((List.range session.index.loaded.size).map .loaded ++
        (List.range session.index.stored.size).map .stored)
      (session.index.items session.image arena.bytes) := by
  refine List.rel_append ?_ ?_
  · refine List.forall₂_map_left_iff.2 (List.forall₂_map_right_iff.2 ?_)
    rw [← Array.length_toList]
    refine (forall₂_range session.index.loaded.toList).imp fun i entry hentry => ⟨?_, ?_⟩
    · rwa [Array.getElem?_toList] at hentry
    · exact fun bytes hbytes => session.slice?_of_loaded hbytes
  · refine List.forall₂_map_left_iff.2 (List.forall₂_map_right_iff.2 ?_)
    rw [← Array.length_toList]
    refine (forall₂_range session.index.stored.toList).imp fun i entry hentry => ⟨?_, ?_⟩
    · rwa [Array.getElem?_toList] at hentry
    · intro bytes hbytes
      obtain ⟨arena', harena', hslice⟩ := Option.bind_eq_some_iff.1 hbytes
      cases harena.symm.trans harena'
      exact hslice

namespace History

variable {history : History} {path : String} {arena : Arena} {merged : Merged}

/-- An entry that is kept is dropped exactly when the item that shows it does not survive. -/
theorem survives_eq {origin : Origin} {item : Item} (hkeeps : history.Keeps origin)
    (hshows : history.session.Shows origin.id item) :
    (!history.drops origin.id) = item.entry.survives := by
  obtain ⟨entry, now, bytes, -, hnow, -, hfail, -⟩ := hkeeps
  cases hnow.symm.trans hshows.1
  simp only [drops, hshows.1, Option.any_some, ← hfail, Entry.survives, Bool.not_or]

/-- **The survivors of a history are the items of the merge that survive**, in the same order. -/
theorem Faithful.shows_survivors (h : history.Faithful)
    (hwrites : history.session.arena = some arena) :
    List.Forall₂ (fun origin item => history.Keeps origin ∧ history.session.Shows origin.id item)
      history.survivors
      ((history.session.index.items history.session.image arena.bytes).filter
        (·.entry.survives)) := by
  have hids : history.origins.map (·.id) =
      (List.range history.session.index.loaded.size).map .loaded ++
      (List.range history.session.index.stored.size).map .stored := by
    rw [origins, List.map_append, h.stored, h.loaded, List.map_map]
    rfl
  have hshows : List.Forall₂ history.session.Shows (history.origins.map (·.id))
      (history.session.index.items history.session.image arena.bytes) := by
    rw [hids]
    exact history.session.shows_items hwrites
  have hboth := (List.forall₂_and_left _ _).2 ⟨h.keeps, List.forall₂_map_left_iff.1 hshows⟩
  exact List.rel_filter (fun origin item hrel => iff_of_eq (congrArg (· = true)
    (survives_eq hrel.1 hrel.2))) hboth

/-- **The entries of a container that carry the items of the merge carry the survivors of the
    history.** -/
theorem Faithful.carries_survivors {container : Container} {entries : List Entry}
    (h : history.Faithful) (hwrites : history.session.arena = some arena)
    (hcarries : List.Forall₂ (Item.CarriedBy container) ((history.session.index.items
      history.session.image arena.bytes).filter (·.entry.survives)) entries) :
    List.Forall₂ (Origin.CarriedBy container) history.survivors entries := by
  refine (forall₂_comp (h.shows_survivors hwrites) hcarries).imp fun origin kept hrel => ?_
  obtain ⟨item, ⟨⟨entry, now, bytes, hentry, hnow, hbecame, -, hbytes, hread⟩, hshow, hpayload⟩,
    hitem⟩ := hrel
  cases hnow.symm.trans hshow
  obtain ⟨payload, hslice, hcontainer⟩ := hitem.payload
  cases (hpayload bytes hread).symm.trans hslice
  exact ⟨entry, bytes, hentry, hbytes, hbecame.keptAs hitem.kept, hcontainer⟩

end History

end CodeVault
