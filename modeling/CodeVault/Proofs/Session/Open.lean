import CodeVault.Proofs.Cursor.Answers
import CodeVault.Proofs.Session.Steps

/-!
# Opening a session

* entries that are read from a container have not failed and have no links, and their bytes are
  there (`holds_of_entries`);
* starting a session is taken apart into what was loaded and what may be written (`start_parts`);
* **a session that was started has the container at its load path with its index and its strings, or
  none** (`Opened`, `opened_of_start`).
-/

namespace CodeVault

open Bytes Cursor

/-! ## 1. What is read from a container -/

/-- An entry that is read has no flag that belongs to a run, and no link. -/
theorem Entry.answers_decode :
    Answers (fun entry : Entry => entry.flags = entry.flags.persistent ∧ entry.next = none)
      decode := by
  unfold decode
  refine Answers.bind fun cursor => Answers.bind fun rawKind => ?_
  split
  · refine Answers.bind fun id => Answers.bind fun offset => Answers.bind fun size => ?_
    refine Answers.bind fun nameOffset => Answers.bind fun nameSize => Answers.bind
      fun codeOffset => ?_
    refine Answers.bind fun codeSize => Answers.bind fun level => ?_
    refine answers_when (u := ()) fun _ => ?_
    refine Answers.bind fun compileId => Answers.bind fun decompile => Answers.bind
      fun inlined => ?_
    exact Answers.bind fun flags => Answers.bind fun _ => answers_pure ⟨rfl, rfl⟩
  · exact answers_throw _

namespace Container

/-- What is known of an entry that was read from a container. -/
def Holds (container : Container) (entry : Entry) : Prop :=
  entry.flags.loadFail = false ∧ entry.next = none ∧ ∃ bytes, container.payload entry = .ok bytes

theorem answers_readEntry (container : Container) :
    Answers (fun entry => container.Holds entry ∧ entry.flags = entry.flags.persistent)
      container.readEntry := by
  intro s t entry hrun
  obtain ⟨read, middle, hread, hrun⟩ := bind_ok hrun
  cases hbytes : container.payload read with
  | error cause =>
    simp only [hbytes] at hrun
    cases hrun
  | ok bytes =>
    simp only [hbytes] at hrun
    obtain ⟨rfl, -⟩ := pure_ok hrun
    obtain ⟨hpersistent, hnext⟩ := Entry.answers_decode hread
    exact ⟨⟨by rw [hpersistent]; rfl, hnext, bytes, hbytes⟩, hpersistent⟩

/-- **The entries of a container have not failed and have no links, and their bytes are there.** -/
theorem holds_of_entries {container : Container} {entries : List Entry}
    (h : container.entries = .ok entries) : ∀ entry ∈ entries, container.Holds entry :=
  fun entry hmem => (((answers_readMany container.answers_readEntry _).of_runAt h).2 entry hmem).1

/-- The entries of a container are fewer than there are ids, and have no flags that belong to a
    run. -/
theorem fresh_of_entries {container : Container} {entries : List Entry}
    (h : container.entries = .ok entries) :
    entries.length < wordSpace ∧ ∀ entry ∈ entries, entry.flags = entry.flags.persistent := by
  obtain ⟨hlength, hentries⟩ := (answers_readMany container.answers_readEntry _).of_runAt h
  exact ⟨hlength ▸ container.header.entries.count.toNat_lt,
    fun entry hmem => (hentries entry hmem).2⟩

end Container

/-! ## 2. Starting -/

namespace Session

/-- Whatever comes of reporting an error, only whether the session is disabled may change. -/
theorem stateOf_report (operation : Operation) (cause : CacheError) (session : Session) :
    ∃ failed, stateOf (report operation cause session) = { session with failed } := by
  unfold report
  split
  · exact ⟨session.failed, rfl⟩
  · split
    · exact ⟨true, rfl⟩
    · exact ⟨session.failed, rfl⟩

/-- A report after which the process goes on. -/
theorem report_ok {operation : Operation} {cause : CacheError} {session after : Session}
    (h : report operation cause session = .ok () after) :
    ∃ failed, after = { session with failed } := by
  have hstate := stateOf_report operation cause session
  rwa [h] at hstate

/-- **A container is loaded exactly if it is in the file and everything in it can be used**: its
    header, its fingerprint, its entries, and its strings. -/
theorem loadContainer_eq_some {files : FileStore} {path : String} {fingerprint : Fingerprint}
    {before symbols : SymbolTable} {container : Container} {index : EntryIndex} :
    loadContainer files path fingerprint before = .ok (some (container, index, symbols)) ↔
      ∃ image strings, files.map path = .ok image ∧ Container.ofBytes image = .ok container ∧
        fingerprint.verify container.header.fingerprint = .ok () ∧ container.loadIndex = .ok index ∧
        container.strings = .ok strings ∧ before.loadStrings strings = .ok symbols := by
  constructor
  · intro h
    unfold loadContainer at h
    split at h
    · cases h
    · cases h
    · rename_i image hfile
      obtain ⟨accepted, haccepted, h⟩ := except_bind_eq_ok.1 h
      obtain ⟨_, hverified, h⟩ := except_bind_eq_ok.1 h
      obtain ⟨read, hindex, h⟩ := except_bind_eq_ok.1 h
      obtain ⟨strings, hstrings, h⟩ := except_bind_eq_ok.1 h
      split at h
      · rename_i hload
        cases h
        exact ⟨image, strings, hfile, haccepted, hverified, hindex, hstrings, hload⟩
      · cases h
  · rintro ⟨image, strings, hfile, haccepted, hverified, hindex, hstrings, hload⟩
    simp only [loadContainer, hfile]
    refine except_bind_eq_ok.2 ⟨container, haccepted, except_bind_eq_ok.2 ⟨(), hverified, ?_⟩⟩
    refine except_bind_eq_ok.2 ⟨index, hindex, except_bind_eq_ok.2 ⟨strings, hstrings, ?_⟩⟩
    simp only [hload]
    rfl

theorem stored_of_loadIndex {container : Container} {index : EntryIndex}
    (h : container.loadIndex = .ok index) :
    index.stored = #[] ∧ container.entries = .ok index.loaded.toList := by
  obtain ⟨entries, hentries, h⟩ := except_bind_eq_ok.1 h
  obtain ⟨keys, -, h⟩ := except_bind_eq_ok.1 h
  obtain ⟨preload, -, h⟩ := except_bind_eq_ok.1 h
  obtain ⟨_, -, h⟩ := except_bind_eq_ok.1 h
  split at h
  · cases h
  · cases h
    exact ⟨rfl, hentries⟩

/-- The container of a session with the index over it, and its strings in the symbols; or none. -/
def Source (before : SymbolTable) (session : Session) (symbols : SymbolTable) : Prop :=
  (session.container = none ∧ session.index.loaded = #[] ∧ symbols = before) ∨
    ∃ container strings, session.container = some container ∧
      container.loadIndex = .ok session.index ∧ container.strings = .ok strings ∧
      before.loadStrings strings = .ok symbols

/-- **What opening for reading leaves when the process goes on**: nothing of a container, and the
    symbols as they were; or the container that was loaded, with its index. -/
theorem openForReading_cases {files : FileStore} {before symbols : SymbolTable} {config : Config}
    {fingerprint : Fingerprint} {session : Session}
    (h : (unopened config fingerprint).openForReading files before = .ok (session, symbols)) :
    (∃ failed, session = { unopened config fingerprint with failed } ∧ symbols = before) ∨
      ∃ path container index, config.loadPath = some path ∧
        loadContainer files path fingerprint before = .ok (some (container, index, symbols)) ∧
        session = { unopened config fingerprint with container := some container, index } := by
  unfold openForReading at h
  split at h
  · cases h
    exact .inl ⟨false, rfl, rfl⟩
  · rename_i path hpath
    split at h
    · cases h
      exact .inl ⟨false, rfl, rfl⟩
    · rename_i container index after hload
      cases h
      exact .inr ⟨path, container, index, hpath, hload, rfl⟩
    · split at h
      · rename_i reported hreport
        cases h
        obtain ⟨failed, rfl⟩ := report_ok hreport
        exact .inl ⟨failed, rfl, rfl⟩
      · cases h

/-- **What starting a session leaves when the process goes on**: an arena if the session may write,
    and no container, or the one at the load path with its index, its strings in the symbols. All
    else is as it was before. -/
theorem start_parts {files : FileStore} {config : Config} {fingerprint : Fingerprint}
    {before symbols : SymbolTable} {session : Session}
    (h : Session.start files config fingerprint before = .ok (session, symbols)) :
    ∃ failed container index,
      session = { unopened config fingerprint with
        failed, container, index
        arena := if config.storePath.isSome && !failed then
          some (.ofCapacity config.capacity) else none
        state := .ofAccess container.isSome (config.storePath.isSome && !failed) } ∧
      ((container = none ∧ index = .empty ∧ symbols = before) ∨
        ∃ path opened, config.loadPath = some path ∧ failed = false ∧ container = some opened ∧
          loadContainer files path fingerprint before = .ok (some (opened, index, symbols))) := by
  -- What opening for writing adds depends on the policy and on whether the session was disabled.
  have hopen : ∀ reading : Session, reading.config = config → reading.arena = none →
      reading.openForWriting = { reading with
        arena := if config.storePath.isSome && !reading.failed then
          some (.ofCapacity config.capacity)
          else none } := by
    rintro ⟨_, _, _, _, _, _, failed, _⟩ rfl rfl
    unfold openForWriting
    dsimp only
    split <;> rfl
  obtain ⟨⟨reading, read⟩, hread, hdone⟩ := except_bind_eq_ok.1 h
  have hstate : ∀ writes : Bool,
      (if writes then some (Arena.ofCapacity config.capacity) else none).isSome = writes := by
    intro writes
    cases writes <;> rfl
  rcases openForReading_cases hread with
    ⟨failed, rfl, rfl⟩ | ⟨path, container, index, hpath, hload, rfl⟩
  · dsimp only at hdone
    rw [hopen _ rfl rfl] at hdone
    cases hdone
    exact ⟨failed, none, .empty, by simp only [hstate]; rfl, .inl ⟨rfl, rfl, rfl⟩⟩
  · dsimp only at hdone
    rw [hopen _ rfl rfl] at hdone
    cases hdone
    exact ⟨false, some container, index,
      by simp only [hstate]; rfl, .inr ⟨path, container, hpath, rfl, rfl, hload⟩⟩

/-- What is known of a session that was started, and of the symbols of its process. -/
structure Opened (config : Config) (fingerprint : Fingerprint) (before : SymbolTable)
    (session : Session) (symbols : SymbolTable) : Prop where
  stored : session.index.stored = #[]
  source : Source before session symbols
  writes : session.config.storePath.isSome = true → session.failed = false →
    session.arena.isSome = true ∧ session.state ≠ .closed
  config : session.config = config
  fingerprint : session.fingerprint = fingerprint

/-- **A session that was started has the container at its load path with its index and its strings,
    or none.** -/
theorem opened_of_start {files : FileStore} {config : Config} {fingerprint : Fingerprint}
    {before symbols : SymbolTable} {session : Session}
    (h : Session.start files config fingerprint before = .ok (session, symbols)) :
    Opened config fingerprint before session symbols := by
  obtain ⟨failed, container, index, rfl, hsource⟩ := start_parts h
  have hwrites : config.storePath.isSome = true → failed = false →
      (if config.storePath.isSome && !failed then
        some (Arena.ofCapacity config.capacity) else none).isSome = true ∧
        SessionState.ofAccess container.isSome (config.storePath.isSome && !failed) ≠ .closed := by
    intro hstore hfailed
    rw [hstore, hfailed]
    refine ⟨rfl, ?_⟩
    cases container <;> simp [SessionState.ofAccess]
  rcases hsource with ⟨rfl, rfl, rfl⟩ | ⟨path, opened, -, -, rfl, hload⟩
  · exact ⟨rfl, .inl ⟨rfl, rfl, rfl⟩, hwrites, rfl, rfl⟩
  · obtain ⟨_, strings, -, -, -, hindex, hstrings, hsymbols⟩ := loadContainer_eq_some.1 hload
    exact ⟨(stored_of_loadIndex hindex).1, .inr ⟨opened, strings, rfl, hindex, hstrings, hsymbols⟩,
      hwrites, rfl, rfl⟩

end Session

end CodeVault
