import CodeVault.Proofs.Session.Contents
import CodeVault.Proofs.Session.Lenient

/-!
# What is true of every entry and its bytes

A property of entries with their bytes that does not depend on offsets, flags and links (`Lasting`),
and that all artifacts have which are stored (`Deposits`), is one that all entries have, wherever
they are:

* in a session, at its start and after every call (`allEntries_start`, `AllEntries.after`);
* in the containers that sessions write, where their entries are laid out (`AllEntries.laid`,
  `AllEntries.build`), and so in all files (`preserves_close`).
-/

namespace CodeVault

open Bytes

/-! ## 1. Properties that last -/

/-- An entry differs from another in its offset, its flags and its link only. -/
def Entry.Alike (entry other : Entry) : Prop :=
  other = { entry with offset := other.offset, flags := other.flags, next := other.next }

theorem Entry.Became.alike {entry now : Entry} (h : entry.Became now) : entry.Alike now := by
  rw [Entry.Alike, h.same]

theorem Entry.KeptAs.alike {entry kept : Entry} (h : entry.KeptAs kept) : entry.Alike kept := by
  unfold Entry.KeptAs at h
  rw [Entry.Alike, h]

theorem EntryIndex.alike_linked (index : EntryIndex) (entry : Entry) :
    entry.Alike (index.linked entry) := by
  rw [Entry.Alike, index.linked_eq]

variable {P : Bytes → Entry → Prop}

/-- A property of entries and their bytes that does not depend on offsets, flags and links. -/
def Lasting (P : Bytes → Entry → Prop) : Prop :=
  ∀ ⦃bytes entry other⦄, entry.Alike other → P bytes entry → P bytes other

/-- An artifact has the property as soon as it is stored. -/
def Deposits (P : Bytes → Entry → Prop) (process : LiveProcess) (artifact : Artifact) : Prop :=
  ∀ ⦃offline arena after layout payload⦄,
    Session.Stored process offline artifact arena after layout payload →
      P payload (Session.entryOf offline artifact layout)

/-- All entries of a container have the property, if the bytes are one. -/
def Container.AllEntries (P : Bytes → Entry → Prop) (image : Bytes) : Prop :=
  ∀ container entries, Container.ofBytes image = .ok container → container.entries = .ok entries →
    ∀ entry ∈ entries, ∃ bytes, container.payload entry = .ok bytes ∧ P bytes entry

namespace Session

/-- All entries of a session that is open have the property; one that is closed has no container. -/
structure AllEntries (P : Bytes → Entry → Prop) (session : Session) : Prop where
  entries : session.state ≠ .closed → ∀ ⦃id entry⦄, session.entry? id = some entry →
    ∃ bytes, session.payload? id entry = some bytes ∧ P bytes entry
  closed : session.state = .closed → session.container = none

theorem allEntries_of_closed {session : Session} (hstate : session.state = .closed)
    (hcontainer : session.container = none) : session.AllEntries P :=
  ⟨fun hopen => absurd hstate hopen, fun _ => hcontainer⟩

/-! ## 2. Starting -/

/-- **A session that was started has nothing of any container, and the symbols are as they were; or
    it has the container that was loaded from the load path.** -/
theorem start_cases {files : FileStore} {config : Config} {fingerprint : Fingerprint}
    {known symbols : SymbolTable} {session : Session}
    (h : Session.start files config fingerprint known = .ok (session, symbols)) :
    (session.container = none ∧ session.index = .empty ∧ symbols = known) ∨
      ∃ path container, config.loadPath = some path ∧ session.failed = false ∧
        session.container = some container ∧
        loadContainer files path fingerprint known =
          .ok (some (container, session.index, symbols)) := by
  obtain ⟨failed, container, index, rfl,
    ⟨rfl, rfl, rfl⟩ | ⟨path, opened, hpath, rfl, rfl, hload⟩⟩ := start_parts h
  · exact .inl ⟨rfl, rfl, rfl⟩
  · exact .inr ⟨path, opened, hpath, rfl, rfl, hload⟩

/-- A session that was started has no entry, or those of a container that is in a file. -/
theorem source_of_start {files : FileStore} {config : Config} {fingerprint : Fingerprint}
    {known symbols : SymbolTable} {session : Session}
    (h : Session.start files config fingerprint known = .ok (session, symbols)) :
    session.index.stored = #[] ∧
      ((session.container = none ∧ session.index.loaded = #[]) ∨ ∃ path image container,
        files.map path = .ok image ∧ Container.ofBytes image = .ok container ∧
          session.container = some container ∧ container.loadIndex = .ok session.index) := by
  refine ⟨(opened_of_start h).stored, ?_⟩
  rcases start_cases h with ⟨hcontainer, hempty, -⟩ | ⟨path, container, -, -, hcontainer, hload⟩
  · exact .inl ⟨hcontainer, by rw [hempty]; rfl⟩
  · obtain ⟨image, _, hfile, haccepted, -, hindex, -⟩ := loadContainer_eq_some.1 hload
    exact .inr ⟨path, image, container, hfile, haccepted, hcontainer, hindex⟩

theorem state_of_start {files : FileStore} {config : Config} {fingerprint : Fingerprint}
    {known symbols : SymbolTable} {session : Session}
    (h : Session.start files config fingerprint known = .ok (session, symbols)) :
    session.state = .ofAccess session.container.isSome session.arena.isSome := by
  obtain ⟨_, -, hdone⟩ := except_bind_eq_ok.1 h
  cases hdone
  rfl

/-- **A session that was started on files whose entries have the property has no other entries.** -/
theorem allEntries_start {files : FileStore} {config : Config} {fingerprint : Fingerprint}
    {known symbols : SymbolTable} {session : Session}
    (hfiles : files.Holds (Container.AllEntries P))
    (h : Session.start files config fingerprint known = .ok (session, symbols)) :
    session.AllEntries P := by
  obtain ⟨hstored, hsource⟩ := source_of_start h
  constructor
  · intro _ id entry hentry
    cases id with
    | stored i =>
      have hget : session.index.stored[i]? = some entry := hentry
      rw [hstored] at hget
      cases hget
    | loaded i =>
      have hget : session.index.loaded[i]? = some entry := hentry
      rcases hsource with ⟨-, hempty⟩ | ⟨path, image, container, hfile, haccepted,
        hcontainer, hindex⟩
      · rw [hempty] at hget
        cases hget
      · obtain ⟨-, hentries⟩ := stored_of_loadIndex hindex
        have hmem : entry ∈ session.index.loaded.toList :=
          Array.mem_toList_iff.2 (Array.mem_of_getElem? hget)
        obtain ⟨bytes, hbytes, hP⟩ := hfiles.of_map hfile container _ haccepted hentries entry hmem
        exact ⟨bytes, payload?_loaded.2 ⟨container, hcontainer, hbytes⟩, hP⟩
  · intro hclosed
    rw [state_of_start h] at hclosed
    cases hcontainer : session.container with
    | none => rfl
    | some container =>
      cases harena : session.arena <;> rw [hcontainer, harena] at hclosed <;> cases hclosed

/-! ## 3. Calls -/

/-- An entry that is there after a step was there before it, or is the one that was stored. -/
theorem Steps.entry?_cases {failing deposited : Option EntryId} {before after : Session}
    {id : EntryId} {now : Entry} (h : Steps failing deposited before after)
    (hnow : after.entry? id = some now) :
    (∃ entry, before.entry? id = some entry ∧ entry.Became now) ∨ deposited = some id := by
  cases hbefore : before.entry? id with
  | some entry =>
    obtain ⟨next, hnext, hbecame, -⟩ := h.index.entries hbefore
    cases hnow.symm.trans hnext
    exact .inl ⟨entry, rfl, hbecame⟩
  | none =>
    refine .inr ?_
    cases id with
    | loaded i =>
      have hlt : i < after.index.loaded.size := (Array.getElem?_eq_some_iff.1 hnow).1
      have hle : before.index.loaded.size ≤ i := Array.getElem?_eq_none_iff.1 hbefore
      have hsame := h.index.loaded
      omega
    | stored i =>
      have hlt : i < after.index.stored.size := (Array.getElem?_eq_some_iff.1 hnow).1
      have hle : before.index.stored.size ≤ i := Array.getElem?_eq_none_iff.1 hbefore
      have hsize := h.stored
      cases deposited with
      | none =>
        simp only [Option.toList_none, List.length_nil] at hsize
        omega
      | some other =>
        obtain ⟨rfl, -⟩ := h.deposit rfl
        simp only [Option.toList_some, List.length_singleton] at hsize
        have hplace : i = before.index.stored.size := by omega
        rw [hplace]

/-- What was stored in a call, and in which artifact's place. -/
theorem stored_of_deposited? {process : LiveProcess} {session : Session} {call : Call}
    {id : EntryId} (h : session.deposited? process call = some id) :
    ∃ artifact arena after layout payload counters, call = .store artifact ∧
      Stored process session.config.offline artifact arena after layout payload ∧
      id = .stored session.index.stored.size ∧
      session.after process call = session.depositing artifact layout after counters := by
  unfold deposited? at h
  split at h
  · rename_i artifact
    split at h
    · rename_i last hstore
      cases h
      obtain ⟨arena, after, layout, payload, counters, -, hstored, rfl, rfl⟩ := store_ok hstore
      refine ⟨artifact, arena, after, layout, payload, counters, rfl, hstored, rfl, ?_⟩
      simp only [Session.after, hstore, stateOf_ok]
    · cases h
  · cases h

/-- **If all entries have the property before a call, and what is stored has it, all entries have it
    after the call.** -/
theorem AllEntries.after {session : Session} (h : session.AllEntries P) (hlasting : Lasting P)
    {process : LiveProcess} {call : Call}
    (hstores : ∀ artifact, call = .store artifact → Deposits P process artifact) :
    (session.after process call).AllEntries P := by
  have hsteps := steps_after process session call
  constructor
  · intro hopen id now hnow
    rw [hsteps.state] at hopen
    -- An old entry has the bytes that it had; a new one has those of the payload that was stored.
    rcases hsteps.entry?_cases hnow with ⟨entry, hentry, hbecame⟩ | hdeposited
    · obtain ⟨bytes, hbytes, hP⟩ := h.entries hopen hentry
      exact ⟨bytes, hsteps.payload? hbecame hbytes, hlasting hbecame.alike hP⟩
    · obtain ⟨artifact, arena, grown, layout, payload, counters, hcall, hstored, rfl, hafter⟩ :=
        stored_of_deposited? hdeposited
      rw [hafter] at hnow ⊢
      obtain ⟨entry, hentry, hbytes, -, -⟩ := payload?_depositing hstored counters
      cases hnow.symm.trans hentry
      have hlinked : now = session.index.linked
          (entryOf session.config.offline artifact layout) := by
        have hlast : some now = some _ := hnow.symm.trans Array.getElem?_push_size
        exact Option.some.inj hlast
      refine ⟨payload, hbytes, ?_⟩
      rw [hlinked]
      exact hlasting (session.index.alike_linked _) (hstores artifact hcall hstored)
  · intro hclosed
    rw [hsteps.state] at hclosed
    rw [hsteps.container, h.closed hclosed]

/-! ## 4. Closing -/

/-- **If all entries of a session have the property, so have those of its merge**, wherever it is
    laid out. -/
theorem AllEntries.laid {session : Session} {path : String} {arena : Arena} {merged : Merged}
    {strings : List CText} {fingerprint : Fingerprint} {image : Bytes} {header : Header}
    {entries : List Entry} (h : session.AllEntries P) (hlasting : Lasting P)
    (hopen : session.state ≠ .closed) (hfinal : session.Finalizes path arena merged)
    (hlaid : Container.Laid strings merged fingerprint image header entries) :
    ∀ entry ∈ entries, ∃ bytes, Container.payload ⟨image, header⟩ entry = .ok bytes ∧
      P bytes entry := by
  intro entry hmem
  obtain ⟨hholds, -⟩ := Merged.holds_of_merge hfinal.merge
  obtain ⟨item, hitem, hkept, payload, hpayload, hread⟩ :=
    exists_of_forall₂ (hlaid.carries hholds) hmem
  obtain ⟨id, -, hentry, hshows⟩ :=
    exists_of_forall₂ (session.shows_items hfinal.writes) (List.mem_of_mem_filter hitem)
  obtain ⟨bytes, hbytes, hP⟩ := h.entries hopen hentry
  cases (hshows bytes hbytes).symm.trans hpayload
  exact ⟨payload, hread, hlasting hkept.alike hP⟩

/-- **If all entries of a session have the property, so have those of the container that it
    writes.** -/
theorem AllEntries.build {session : Session} {path : String} {arena : Arena} {merged : Merged}
    {strings : List CText} {now : UInt64} {image : Bytes} (h : session.AllEntries P)
    (hlasting : Lasting P) (hopen : session.state ≠ .closed)
    (hfinal : session.Finalizes path arena merged)
    (hbuild : Container.build strings merged session.fingerprint now = .ok image) :
    Container.AllEntries P image := by
  obtain ⟨header, placed, hlaid⟩ := Container.laid_of_build hbuild
  obtain ⟨hholds, -⟩ := Merged.holds_of_merge hfinal.merge
  intro container entries haccepted hentries
  cases hlaid.eq_of_ofBytes haccepted
  cases (hlaid.entries_ok hholds).symm.trans hentries
  exact h.laid hlasting hopen hfinal hlaid

/-- Leaving a session, with whatever outcome, puts nothing in a file but the container of its
    merge. -/
theorem holds_leave {holds : Bytes → Prop} {session : Session} {symbols : SymbolTable}
    {now : UInt64} {files : FileStore} (h : files.Holds holds)
    (himage : ∀ path arena merged image, session.Finalizes path arena merged →
      Container.build symbols.strings.texts merged session.fingerprint now = .ok image →
      holds image) :
    (session.leave symbols now files).2.Holds holds := by
  unfold leave
  split
  · exact h
  · rename_i arena hwrites
    -- Nothing is written by a session that is disabled, has no path or has no entries left.
    by_cases hfailed : session.failed = true
    · simp only [hfailed, if_true]
      exact h
    have henabled : session.failed = false := by simpa using hfailed
    simp only [henabled, Bool.false_eq_true, if_false]
    unfold finalize
    split
    · exact h
    rename_i path hpath
    split
    · exact h
    · exact h
    rename_i image hfinal
    obtain ⟨merged, hmerge, ⟨hnone, -⟩ | ⟨built, hsome, hbuild⟩⟩ := finalImage_ok hfinal
    · cases hnone
    cases hsome
    have hbytes : holds image :=
      himage path arena merged image ⟨henabled, hwrites, hpath, hmerge⟩ hbuild
    have hkept : (persist path image files).2.Holds holds := holds_persist h hbytes
    split
    all_goals
      rename_i hrun
      rw [hrun] at hkept
      exact hkept

/-- All entries have the property, those of a session and those in files. -/
structure Closing.AllEntries (P : Bytes → Entry → Prop) (closing : Closing) : Prop where
  session : closing.session.AllEntries P
  files : closing.files.Holds (Container.AllEntries P)

/-- The session and the files that closing leaves, with whatever outcome. -/
theorem stateOf_close {session : Session} (symbols : SymbolTable) (now : UInt64) (files : FileStore)
    (hopen : session.state ≠ .closed) :
    ∃ failed, stateOf (close symbols now ⟨session, files⟩) =
      ⟨{ session with container := none, arena := none, state := .closed, failed },
        (session.leave symbols now files).2⟩ := by
  simp only [close, hopen, if_false]
  rcases session.leave symbols now files with ⟨result, left⟩
  cases result with
  | ok path => exact ⟨session.failed, rfl⟩
  | error cause =>
    obtain ⟨failed, hreport⟩ := stateOf_report .finalizing cause
      { session with container := none, arena := none, state := .closed }
    refine ⟨failed, ?_⟩
    rw [← hreport]
    simp only
    split
    all_goals
      rename_i hrun
      rw [hrun]
      rfl

theorem stateOf_drop (symbols : SymbolTable) (now : UInt64) (closing : Closing) :
    stateOf (drop symbols now closing) = stateOf (close symbols now closing) := by
  unfold drop
  split
  all_goals
    rename_i hrun
    rw [hrun]
    rfl

/-- **Whatever comes of closing a session, all entries have the property that all had.** -/
theorem preserves_close (hlasting : Lasting P) (symbols : SymbolTable) (now : UInt64) :
    Preserves (Closing.AllEntries P) (close symbols now) := by
  rintro ⟨session, files⟩ ⟨hsession, hfiles⟩
  by_cases hclosed : session.state = .closed
  · simp only [close, hclosed, if_true]
    exact ⟨hsession, hfiles⟩
  · obtain ⟨failed, hstate⟩ := stateOf_close symbols now files hclosed
    rw [hstate]
    exact ⟨allEntries_of_closed rfl rfl,
      holds_leave hfiles fun path arena merged image hfinal hbuild =>
      hsession.build hlasting hclosed hfinal hbuild⟩

theorem preserves_drop (hlasting : Lasting P) (symbols : SymbolTable) (now : UInt64) :
    Preserves (Closing.AllEntries P) (drop symbols now) := by
  intro closing h
  rw [stateOf_drop]
  exact preserves_close hlasting symbols now h

end Session

end CodeVault
