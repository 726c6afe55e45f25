import Mathlib
import CodeVault.Proofs.Artifact.RoundTrip
import CodeVault.Proofs.Session.Close
import CodeVault.Proofs.Symbol.Loads

/-!
# What is found in the container of a closed session

* **closing writes exactly the survivors of a run**, whatever was called in it and with whatever
  outcome (`close_writes_survivors`): the container at the store path is accepted by a process with
  the same fingerprint, its entries carry the survivors, and its strings start with those that were
  loaded;
* closing in place of the container that was loaded drops what is to be dropped as soon as anything
  is written (`close_in_place`). If everything is to be dropped nothing is written, and what was
  there stays.
-/

namespace CodeVault

open Bytes Session

/-! ## 1. The container at the path -/

/-- What closing a session has written: the merge of its entries, laid out at its store path. -/
structure Session.Written (session : Session) (strings : List CText) (path : String)
    (files : FileStore) (arena : Arena) (merged : Merged) (image : Bytes) (header : Header)
    (entries : List Entry) : Prop where
  finalizes : session.Finalizes path arena merged
  file : files.map path = .ok image
  laid : Container.Laid strings merged session.fingerprint image header entries
  holds : merged.Holds (session.index.items session.image arena.bytes)
  sorted : ∃ keys, merged.search = SearchTable.sort keys

/-- A session is open if closing it wrote something. -/
theorem Session.open_of_close {session : Session} {symbols : SymbolTable} {now : UInt64}
    {files : FileStore} {path : String} {closing : Closing}
    (h : close symbols now ⟨session, files⟩ = .ok (some path) closing) :
    session.state ≠ .closed := by
  intro hclosed
  simp only [close, hclosed, if_true] at h
  cases h

/-- Closing with a path has put the container of the merge there, which is not empty. -/
theorem Session.build_of_close {session : Session} {symbols : SymbolTable} {now : UInt64}
    {files : FileStore} {path : String} {closing : Closing}
    (h : close symbols now ⟨session, files⟩ = .ok (some path) closing) :
    ∃ arena merged image, session.Finalizes path arena merged ∧ merged.entries ≠ #[] ∧
      Container.build symbols.strings.texts merged session.fingerprint now = .ok image ∧
      closing.files.map path = .ok image := by
  have hopen := open_of_close h
  rcases leave_ok (leave_of_close hopen h) with
    ⟨other, arena, merged, image, hpath, hfinal, hbuild, hfile⟩ | ⟨hnone, -⟩
  · cases hpath
    refine ⟨arena, merged, image, hfinal, fun hempty => ?_, hbuild, hfile⟩
    have hnothing := finalImage_of_empty hfinal.merge hempty symbols.strings.texts now
    cases (close_of_none hopen hfinal.enabled hfinal.writes hfinal.path hnothing).symm.trans h
  · cases hnone

/-- **Closing with a path has written the merge there.** -/
theorem Session.written_of_close {session : Session} {symbols : SymbolTable} {now : UInt64}
    {files : FileStore} {path : String} {closing : Closing}
    (h : close symbols now ⟨session, files⟩ = .ok (some path) closing) :
    ∃ arena merged image header entries,
      session.Written symbols.strings.texts path closing.files arena
      merged image header entries := by
  obtain ⟨arena, merged, image, hfinal, -, hbuild, hfile⟩ := build_of_close h
  obtain ⟨header, entries, hlaid⟩ := Container.laid_of_build hbuild
  obtain ⟨hholds, hsorted⟩ := Merged.holds_of_merge hfinal.merge
  exact ⟨arena, merged, image, header, entries, hfinal, hfile, hlaid, hholds, hsorted⟩

/-- The kind of an entry as it came about. -/
def Origin.kind? (origin : Origin) : Option EntryKind :=
  (origin.session.entry? origin.id).map (·.kind)

namespace History

variable {history : History} {strings : List CText} {path : String} {files : FileStore}
  {arena : Arena} {merged : Merged} {image : Bytes} {header : Header} {entries : List Entry}

/-- The entries that were written carry the survivors. -/
theorem Faithful.carries_written (h : history.Faithful)
    (hwritten : history.session.Written strings path files arena merged image header entries) :
    List.Forall₂ (Origin.CarriedBy ⟨image, header⟩) history.survivors entries :=
  h.carries_survivors hwritten.finalizes.writes (hwritten.laid.carries hwritten.holds)

/-- **The entries of the merge are of the kinds of what they are kept of.** -/
theorem Faithful.kinds_merged (h : history.Faithful)
    (hwritten : history.session.Written strings path files arena merged image header entries) :
    List.Forall₂ (fun origin kept => origin.kind? = some kept.kind) history.survivors
      merged.entries.toList := by
  have hboth := forall₂_comp (h.shows_survivors hwritten.finalizes.writes) hwritten.holds.entries
  refine hboth.imp fun origin kept hrel => ?_
  obtain ⟨item, ⟨⟨entry, now, -, hentry, hnow, hbecame, -⟩, hshow, -⟩, offset, bytes, -, rfl, -⟩ :=
    hrel
  cases hnow.symm.trans hshow
  have hkind : item.entry.kind = entry.kind := by rw [hbecame.same]
  rw [Origin.kind?, hentry]
  exact congrArg some hkind.symm

/-- Only what was loaded can be of no kind. -/
theorem Faithful.loaded_of_kind? (h : history.Faithful) {origin : Origin}
    (horigin : origin ∈ history.origins) (hkind : origin.kind? = some .none) :
    ∃ i, origin = ⟨history.opened, .loaded i⟩ ∧
      ∃ entry ∈ history.opened.index.loaded, entry.kind = .none := by
  obtain ⟨entry, hentry, hnone⟩ := Option.map_eq_some_iff.1 hkind
  rcases List.mem_append.1 horigin with hloaded | hstored
  · obtain ⟨i, -, rfl⟩ := List.mem_map.1 hloaded
    exact ⟨i, rfl, entry, Array.mem_of_getElem? hentry, hnone⟩
  · exact absurd hnone (h.kinds origin hstored entry hentry)

/-- **What was written is a container of the same fingerprint, with an index over its entries**, if
    all that survived is of some kind. -/
theorem Faithful.opens_survivors (h : history.Faithful)
    (hkinds : ∀ origin ∈ history.survivors, origin.kind? ≠ some .none)
    (hwritten : history.session.Written strings path files arena merged image header entries) :
    Container.ofBytes image = .ok ⟨image, header⟩ ∧
      history.session.fingerprint.verify header.fingerprint = .ok () ∧
      ∃ search preload, Container.loadIndex ⟨image, header⟩ =
        .ok ⟨entries.toArray, search, preload, #[]⟩ := by
  have hmerged : ∀ entry ∈ merged.entries.toList, entry.kind ≠ .none := by
    intro kept hkept hnone
    obtain ⟨origin, horigin, hkind⟩ := exists_of_forall₂ (h.kinds_merged hwritten) hkept
    exact hkinds origin horigin (hnone ▸ hkind)
  obtain ⟨keys, hsorted⟩ := hwritten.sorted
  refine ⟨hwritten.laid.ofBytes_ok hmerged, ?_,
    merged.search.toArray, merged.preload, hwritten.laid.loadIndex_ok hwritten.holds hsorted⟩
  rw [Fingerprint.verify, hwritten.laid.fingerprint, Fingerprint.firstDifference?_eq_none.2 rfl]

/-- The same if all that was loaded is of some kind. -/
theorem Faithful.opens_written (h : history.Faithful)
    (hkinds : ∀ entry ∈ history.opened.index.loaded, entry.kind ≠ .none)
    (hwritten : history.session.Written strings path files arena merged image header entries) :
    Container.ofBytes image = .ok ⟨image, header⟩ ∧
      history.session.fingerprint.verify header.fingerprint = .ok () ∧
      ∃ search preload, Container.loadIndex ⟨image, header⟩ =
        .ok ⟨entries.toArray, search, preload, #[]⟩ := by
  refine h.opens_survivors (fun origin horigin hkind => ?_) hwritten
  obtain ⟨-, -, entry, hmem, hnone⟩ := h.loaded_of_kind? (List.mem_of_mem_filter horigin) hkind
  exact hkinds entry hmem hnone

/-- If the merge is empty, nothing survives. -/
theorem Faithful.survivors_eq_nil (h : history.Faithful)
    (hfinal : history.session.Finalizes path arena merged) (hempty : merged.entries = #[]) :
    history.survivors = [] := by
  have hboth :=
    forall₂_comp (h.shows_survivors hfinal.writes) (Merged.holds_of_merge hfinal.merge).1.entries
  rw [hempty] at hboth
  exact List.forall₂_nil_right_iff.1 hboth

end History

/-! ## 2. Runs from opening to closing -/

/-- The history of a session from when it was opened. -/
def Session.history (opened : Session) (calls : List (LiveProcess × Call)) : History :=
  (History.start opened).run calls

/-- A history starts with the session that was opened. -/
theorem Session.opened_history (opened : Session) (calls : List (LiveProcess × Call)) :
    (opened.history calls).opened = opened :=
  History.opened_run (History.start opened) calls

section Started

variable {config : Config} {fingerprint : Fingerprint} {known symbols : SymbolTable}
  {opened : Session}

/-- **Every run of a session that was started is faithful.** -/
theorem Session.Opened.faithful (h : Opened config fingerprint known opened symbols)
    (calls : List (LiveProcess × Call)) : (opened.history calls).Faithful :=
  (History.faithful_start h).run calls

/-- The policy is the one that the session was started with. -/
theorem Session.Opened.config_history (h : Opened config fingerprint known opened symbols)
    (calls : List (LiveProcess × Call)) : (opened.history calls).session.config = config := by
  rw [(h.faithful calls).config, opened_history, h.config]

/-- The fingerprint is that of the process that started the session. -/
theorem Session.Opened.fingerprint_history (h : Opened config fingerprint known opened symbols)
    (calls : List (LiveProcess × Call)) :
    (opened.history calls).session.fingerprint = fingerprint := by
  rw [(h.faithful calls).fingerprint, opened_history, h.fingerprint]

end Started

/-- No survivor failed to load, or is preload code that was invalidated while it was there. -/
theorem History.of_mem_survivors {opened : Session} {calls : List (LiveProcess × Call)}
    {origin : Origin} (h : origin ∈ (opened.history calls).survivors) :
    origin.id ∉ (opened.history calls).failures ∧
      ∀ earlier process later entry, calls = earlier ++ (process, .invalidate origin.id) :: later →
        (opened.history earlier).session.entry? origin.id = some entry →
          entry.flags.forPreload = false := by
  have hkept : (opened.history calls).drops origin.id = false := by
    simpa using (List.mem_filter.1 h).2
  rw [drops, Bool.or_eq_false_iff] at hkept
  obtain ⟨hfailures, hpreload⟩ := hkept
  refine ⟨by simpa using hfailures, fun earlier process later entry hcalls hentry => ?_⟩
  obtain ⟨now, hnow, hbecame, hout⟩ := notEntrant_run hentry process later
  rw [Session.history, ← run_append, ← hcalls] at hnow
  have hboth : (now.flags.notEntrant && now.flags.forPreload) = false := by
    simpa [Session.history, hnow] using hpreload
  rw [hout, Bool.true_and, hbecame.forPreload] at hboth
  exact hboth

section Runs

variable {files before : FileStore} {config : Config} {fingerprint : Fingerprint}
  {known symbols : SymbolTable} {opened : Session} {calls : List (LiveProcess × Call)}
  {events : List SymbolEvent} {now : UInt64} {closing : Closing}

/-- **Closing writes exactly the survivors of a run.** Whatever was called between opening and
    closing, and with whatever outcome: if closing answers a path, the file there is a container
    that is accepted with the same fingerprint, and its entries carry, in this order, the entries
    that were loaded and then those that were stored, without those whose load failed and the
    preload code that is not entrant any more. If all strings are text they are read back, those of
    the container that was loaded first and unchanged, and another process can load the
    container. -/
theorem close_writes_survivors {path : String} (hknown : known.Reached)
    (hstart : Session.start files config fingerprint known = .ok (opened, symbols))
    (hkinds : ∀ entry ∈ opened.index.loaded, entry.kind ≠ .none)
    (hclose : close (symbols.after events) now ⟨(opened.history calls).session, before⟩
      = .ok (some path) closing) :
    ∃ image container index, closing.files.map path = .ok image ∧
      Container.ofBytes image = .ok container ∧
      fingerprint.verify container.header.fingerprint = .ok () ∧
      container.loadIndex = .ok index ∧ index.stored = #[] ∧
      List.Forall₂ (Origin.CarriedBy container) (opened.history calls).survivors
        index.loaded.toList ∧
      ((∀ text ∈ (symbols.after events).strings.texts, text.IsText) →
        container.strings = .ok (symbols.after events).strings.texts ∧
        (∀ source strings, opened.container = some source → source.strings = .ok strings →
          ∃ rest, (symbols.after events).strings.texts = strings ++ rest) ∧
        ∀ other loaded, other.loadStrings (symbols.after events).strings.texts = .ok loaded →
          loadContainer closing.files path fingerprint other =
            .ok (some (container, index, loaded))) := by
  have hopened := opened_of_start hstart
  have hfaithful := hopened.faithful calls
  obtain ⟨arena, merged, image, header, entries, hwritten⟩ := written_of_close hclose
  have hloaded : ∀ entry ∈ (opened.history calls).opened.index.loaded, entry.kind ≠ .none := by
    rw [opened_history]
    exact hkinds
  obtain ⟨haccepted, hverified, search, preload, hindex⟩ := hfaithful.opens_written hloaded hwritten
  rw [hopened.fingerprint_history] at hverified
  refine ⟨image, ⟨image, header⟩, ⟨entries.toArray, search, preload, #[]⟩, hwritten.file, haccepted,
    hverified, hindex, rfl, hfaithful.carries_written hwritten, fun htext => ?_⟩
  have hstrings := hwritten.laid.strings_ok htext
  refine ⟨hstrings, fun source strings hsource hread => ?_, fun other loaded hload => ?_⟩
  · rcases hopened.source with ⟨hnone, -⟩ | ⟨container, list, hcontainer, -, hlist, hsymbols⟩
    · cases hnone.symm.trans hsource
    · cases hcontainer.symm.trans hsource
      cases hlist.symm.trans hread
      exact SymbolTable.texts_after_load hknown.sound hsymbols events
  · exact loadContainer_eq_some.2 ⟨_, _, hwritten.file, haccepted, hverified, hindex,
      hstrings, hload⟩

/-! An example: a container with one method that is installed before its first call, which is
updated in place. The method is invalidated, and a stub is stored instead. -/

/-- A policy that updates the container at `app`. -/
def updating : Config := ⟨some "app", some "app", false, 1024, false, true⟩

/-- A method to be installed before its first call, with nothing in it. -/
def preloadMethod : Entry :=
  { Entry.blank .code 7 with flags := { EntryFlags.none with forPreload := true } }

/-- The fingerprint of a process without any flag. -/
def plain : Fingerprint := ⟨.serial, 0, 0, 0, 0, 0⟩

/-- The bytes of a container of that method. -/
def preloadImage : Bytes :=
  match Container.build [] ⟨#[preloadMethod], #[], [⟨7, 0⟩], #[0], 0⟩ plain 0 with
  | .ok image => image
  | .error _ => #[]

/-- The container of that method. -/
def preloadContainer : Container where
  bytes := preloadImage
  header :=
    { Header.blank plain 0 with
      size := 168
      strings := ⟨0, 96⟩
      preload := ⟨1, 96⟩
      searchOffset := 104
      entries := ⟨1, 112⟩
      counts := ⟨0, 0, 0, 1⟩ }

/-- A file at `app`. -/
def fileAtApp (bytes : Bytes) : FileStore := ⟨[(["app"], .file bytes)], []⟩

/-- The symbols of a process that has not interned anything. -/
def idle : SymbolTable :=
  SymbolTable.empty ⟨4096, 256⟩ fun serial => UInt64.ofNat (36864 + 16 * serial)

theorem zero_notMem_interned : (0 : UInt8) ∉ #[104, 105] := by simp

/-- The process interns a string. -/
def interning : List SymbolEvent := [.interned 20480 ⟨#[104, 105], zero_notMem_interned⟩]

/-- A session that was started on the container at `app`. -/
def updated : Session :=
  { unopened updating plain with
    container := some preloadContainer
    index := ⟨#[{ preloadMethod with offset := 168 }], #[⟨7, 0⟩], #[0], #[]⟩
    arena := some (.ofCapacity 1024)
    state := .openForBoth }

/-- The method is invalidated. -/
def invalidating : List (LiveProcess × Call) := [(Context.internedOnce, .invalidate (.loaded 0))]

/-- The method is invalidated, and a stub is stored. -/
def replacing : List (LiveProcess × Call) :=
  invalidating ++ [(Context.internedOnce, .store Context.selfCallingStub)]

theorem map_fileAtApp (bytes : Bytes) : (fileAtApp bytes).map "app" = .ok bytes := by
  cbv

theorem persist_fileAtApp (old bytes : Bytes) :
    persist "app" bytes (fileAtApp old) = (.ok (), fileAtApp bytes) := by
  have hparent : Path.parent? "app".toList = some [] := by decide +kernel
  have hdirectory : FileStore.makeDirectories "." (fileAtApp old) = .ok () (fileAtApp old) := by
    have hnames : FileStore.names "." = .ok [] := by cbv
    simp only [FileStore.makeDirectories, hnames]
    rfl
  have hreplace : (fileAtApp old).replace "app" bytes = .ok (fileAtApp bytes) := by
    have hnul : Path.hasNul "app" = false := by decide +kernel
    have hnameless : Path.isNameless "app" = false := by decide +kernel
    have hslash : "app".endsWith "/" = false := by cbv
    have hlocate : (fileAtApp old).locate "app" = .ok ["app"] := by
      have hnames : FileStore.names "app" = .ok ["app"] := by cbv
      have hstart : (fileAtApp old).start "app" = [] := by cbv
      simp only [FileStore.locate, hnames, hstart]
      rfl
    simp only [FileStore.replace, hnul, hnameless, hslash, hlocate]
    rfl
  simp only [persist, hparent, hdirectory, hreplace]

/-- Starting a session on a container at `app` that is in order and has no strings. -/
theorem start_at_app (container : Container) {index : EntryIndex}
    (hheader : Header.decode container.bytes = .ok container.header)
    (hverified : plain.verify container.header.fingerprint = .ok ())
    (hindex : container.loadIndex = .ok index) (hstrings : container.strings = .ok []) :
    Session.start (fileAtApp container.bytes) updating plain idle =
      .ok ({ updated with container := some container, index }, idle) := by
  have haccepted : Container.ofBytes container.bytes = .ok container :=
    except_bind_eq_ok.2 ⟨_, hheader, rfl⟩
  have hload : loadContainer (fileAtApp container.bytes) "app" plain idle
      = .ok (some (container, index, idle)) :=
    loadContainer_eq_some.2 ⟨_, _, map_fileAtApp _, haccepted, hverified, hindex, hstrings, rfl⟩
  simp only [Session.start, openForReading, unopened, updating, hload]
  rfl

theorem start_updating :
    Session.start (fileAtApp preloadImage) updating plain idle = .ok (updated, idle) := by
  have hheader : Header.decode preloadImage = .ok preloadContainer.header := by decide +kernel
  have hindex : preloadContainer.loadIndex = .ok updated.index := by decide +kernel
  have hstrings : preloadContainer.strings = .ok [] := by decide +kernel
  exact start_at_app preloadContainer hheader rfl hindex hstrings

/-- Closing a session that leaves something at `app`. -/
theorem close_at_app (old : Bytes) {session : Session} {symbols : SymbolTable} {now : UInt64}
    {image : Bytes} (hopen : session.state ≠ .closed)
    (hpath : session.config.storePath = some "app")
    (hfinal : session.finalBytes? symbols.strings.texts now = some image) :
    close symbols now ⟨session, fileAtApp old⟩ = .ok (some "app")
      ⟨{ session with container := none, arena := none, state := .closed }, fileAtApp image⟩ := by
  obtain ⟨arena, henabled, hwrites, hfinal⟩ := of_finalBytes? hfinal
  exact close_of_some hopen henabled hwrites hpath hfinal (persist_fileAtApp old image)

theorem close_replacing :
    ∃ image, close (idle.after interning) 0
        ⟨(updated.history replacing).session, fileAtApp preloadImage⟩
      = .ok (some "app") ⟨{ (updated.history replacing).session with
          container := none
          arena := none
          state := .closed }, fileAtApp image⟩ := by
  have hopened := opened_of_start start_updating
  have hopen : (updated.history replacing).session.state ≠ .closed := by
    rw [(hopened.faithful replacing).state]
    decide
  have hpath : (updated.history replacing).session.config.storePath = some "app" := by
    rw [hopened.config_history]
    rfl
  have hfinal : (updated.history replacing).session.finalBytes?
      (idle.after interning).strings.texts 0 ≠ none := by
    decide +kernel
  obtain ⟨image, himage⟩ := Option.ne_none_iff_exists'.1 hfinal
  exact ⟨image, close_at_app preloadImage hopen hpath himage⟩

theorem close_writes_replacing :
    ∃ closing image container index,
      close (idle.after interning) 0
        ⟨(updated.history replacing).session, fileAtApp preloadImage⟩ = .ok (some "app") closing ∧
      closing.files.map "app" = .ok image ∧ Container.ofBytes image = .ok container ∧
      container.loadIndex = .ok index ∧
      List.Forall₂ (Origin.CarriedBy container) (updated.history replacing).survivors
        index.loaded.toList ∧
      (updated.history replacing).survivors.map (·.id) = [.stored 0] := by
  obtain ⟨image, hclose⟩ := close_replacing
  have hkinds : ∀ entry ∈ updated.index.loaded, entry.kind ≠ .none := by decide
  obtain ⟨written, container, index, hfile, haccepted, -, hindex, -, hcarries, -⟩ :=
    close_writes_survivors ⟨_, _, [], rfl⟩ start_updating hkinds hclose
  exact ⟨_, written, container, index, hclose, hfile, haccepted, hindex, hcarries,
    by decide +kernel⟩

/-- **Closing drops what is to be dropped, or writes nothing.** Of a run of a session that has a
    store path, be it the path that its container was loaded from, and is not disabled: if closing
    answers the path, the entries of the container there carry the survivors and nothing else, and
    none of these failed to load or is preload code that was invalidated; if it answers none,
    nothing survived, and all files are as they were before. -/
theorem close_in_place {path : String} {table : SymbolTable} {result : Option String}
    (hstart : Session.start files config fingerprint known = .ok (opened, symbols))
    (hstore : config.storePath = some path)
    (henabled : (opened.history calls).session.failed = false)
    (hclose : close table now ⟨(opened.history calls).session, before⟩ = .ok result closing) :
    (∀ origin ∈ (opened.history calls).survivors, origin.id ∉ (opened.history calls).failures ∧
      ∀ earlier process later entry, calls = earlier ++ (process, .invalidate origin.id) :: later →
        (opened.history earlier).session.entry? origin.id = some entry →
          entry.flags.forPreload = false) ∧
    ((result = some path ∧ ∃ image, closing.files.map path = .ok image ∧
        ∀ container entries, Container.ofBytes image = .ok container →
          container.entries = .ok entries →
          List.Forall₂ (Origin.CarriedBy container) (opened.history calls).survivors entries) ∨
      (result = none ∧ (opened.history calls).survivors = [] ∧ closing.files = before)) := by
  have hopened := opened_of_start hstart
  have hfaithful := hopened.faithful calls
  have hsame : (opened.history calls).opened = opened := opened_history opened calls
  have hconfig : (opened.history calls).session.config = config := hopened.config_history calls
  refine ⟨fun origin horigin => History.of_mem_survivors horigin, ?_⟩
  cases result with
  | some written =>
    obtain ⟨arena, merged, image, header, entries, hwritten⟩ := written_of_close hclose
    have hpath : written = path := by
      have := hwritten.finalizes.path
      rw [hconfig, hstore] at this
      exact (Option.some.inj this).symm
    subst hpath
    refine .inl ⟨rfl, image, hwritten.file, fun container read haccepted hread => ?_⟩
    cases hwritten.laid.eq_of_ofBytes haccepted
    cases (hwritten.laid.entries_ok hwritten.holds).symm.trans hread
    exact hfaithful.carries_written hwritten
  | none =>
    have hfirst : opened.failed = false := by
      cases hfailed : opened.failed with
      | false => rfl
      | true =>
        rw [hfaithful.failed (by rw [hsame, hfailed])] at henabled
        cases henabled
    obtain ⟨hwrites, hopen⟩ := hopened.writes (by rw [hopened.config, hstore]; rfl) hfirst
    rw [← hsame] at hwrites hopen
    obtain ⟨arena, harena⟩ := Option.isSome_iff_exists.1 (hfaithful.arena hwrites)
    have hleave := leave_of_close (hfaithful.state ▸ hopen) hclose
    rcases leave_ok hleave with ⟨_, _, _, _, hsome, -⟩ | ⟨-, hfiles, hnothing⟩
    · cases hsome
    · obtain ⟨merged, hfinal, hempty⟩ := hnothing arena path henabled harena (hconfig ▸ hstore)
      exact .inr ⟨rfl, hfaithful.survivors_eq_nil hfinal hempty, hfiles⟩

theorem close_in_place_replacing :
    ∃ closing image container entries,
      close (idle.after interning) 0 ⟨(updated.history replacing).session, fileAtApp preloadImage⟩
        = .ok (some "app") closing ∧
      closing.files.map "app" = .ok image ∧ Container.ofBytes image = .ok container ∧
      container.entries = .ok entries ∧
      List.Forall₂ (Origin.CarriedBy container) (updated.history replacing).survivors entries ∧
      (updated.history replacing).survivors.map (·.id) = [.stored 0] := by
  obtain ⟨image, hclose⟩ := close_replacing
  obtain ⟨-, ⟨-, written, hfile, hcontents⟩ | ⟨hnone, -⟩⟩ :=
    close_in_place start_updating rfl (by decide +kernel) hclose
  · have hfaithful := (opened_of_start start_updating).faithful replacing
    have hkinds : ∀ entry ∈ (updated.history replacing).opened.index.loaded,
        entry.kind ≠ .none := by
      rw [opened_history]
      decide
    obtain ⟨arena, merged, built, header, entries, hwritten⟩ := written_of_close hclose
    obtain ⟨haccepted, -⟩ := hfaithful.opens_written hkinds hwritten
    cases hwritten.file.symm.trans hfile
    have hentries := hwritten.laid.entries_ok hwritten.holds
    exact ⟨_, written, ⟨written, header⟩, entries, hclose, hfile, haccepted, hentries,
      hcontents _ _ haccepted hentries, by decide +kernel⟩
  · cases hnone

/-- If nothing survives, what is to be dropped is still at the path after the session was closed. -/
theorem invalidated_stays_at_path :
    updating.loadPath = updating.storePath ∧
      Session.start (fileAtApp preloadImage) updating plain idle = .ok (updated, idle) ∧
      (updated.history invalidating).session.failed = false ∧
      (updated.history invalidating).survivors = [] ∧
      (∃ closing, close idle 0 ⟨(updated.history invalidating).session, fileAtApp preloadImage⟩
          = .ok none closing ∧ closing.files.map "app" = .ok preloadImage) ∧
      Container.ofBytes preloadImage = .ok preloadContainer ∧
      ∃ entry, preloadContainer.entries = .ok [entry] ∧ updated.entry? (.loaded 0) = some entry ∧
        entry.flags.forPreload = true ∧
        ((updated.history invalidating).session.entry? (.loaded 0)).map (·.flags.notEntrant) =
          some true := by
  have hheader : Header.decode preloadImage = .ok preloadContainer.header := by decide +kernel
  have hfinal : (updated.history invalidating).session.finalImage (.ofCapacity 1024) [] 0 =
      .ok none := by
    decide +kernel
  have hopen : (updated.history invalidating).session.state ≠ .closed := by decide +kernel
  have henabled : (updated.history invalidating).session.failed = false := by decide +kernel
  exact ⟨rfl, start_updating, henabled, by decide +kernel,
    ⟨_, close_of_none hopen henabled rfl rfl hfinal, map_fileAtApp _⟩,
    except_bind_eq_ok.2 ⟨_, hheader, rfl⟩, { preloadMethod with offset := 168 },
    by decide +kernel, rfl, rfl, by decide +kernel⟩

end Runs

end CodeVault
