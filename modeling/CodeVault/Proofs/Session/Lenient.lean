import CodeVault.Proofs.Container.Refusals
import CodeVault.Proofs.Session.Contents

/-!
# Opening a session on any file

* loading a container fails so that the session is disabled, or because the bytes are inconsistent
  (`loadContainer_error`);
* **if the policy is lenient a session can be started on any file**, with the container there or
  with nothing of it (`Loads`, `Bare`), **unless the bytes are inconsistent: exactly these stop the
  process** (`start_lenient`).
-/

namespace CodeVault

open Bytes

namespace Session

variable {files : FileStore} {path : String} {config : Config} {fingerprint : Fingerprint}
  {known : SymbolTable}

/-! ## 1. What loading a container fails for -/

/-- There is nothing to load only if there is no file. -/
theorem loadContainer_none (h : loadContainer files path fingerprint known = .ok none) :
    files.map path = .error .notFound := by
  unfold loadContainer at h
  split at h
  · assumption
  · cases h
  · obtain ⟨container, -, h⟩ := except_bind_eq_ok.1 h
    obtain ⟨_, -, h⟩ := except_bind_eq_ok.1 h
    obtain ⟨index, -, h⟩ := except_bind_eq_ok.1 h
    obtain ⟨strings, -, h⟩ := except_bind_eq_ok.1 h
    split at h <;> cases h

/-- Bytes are refused by their header so that the session is disabled, or for their collector. -/
theorem severity_of_refusal {image : Bytes} {cause : CacheError} (h : Header.Refusal image cause)
    (fingerprint : Fingerprint) :
    cause.severity = .cache ∨
      ∃ corruption, cause = .corrupt corruption ∧
        Container.Inconsistent fingerprint image corruption := by
  cases h with
  | collector raw hrecognized hstored hunknown =>
    exact .inr ⟨_, rfl, .collector raw hrecognized hstored hunknown⟩
  | short _ => exact .inl rfl
  | mark => exact .inl rfl
  | version _ _ => exact .inl rfl
  | size _ _ => exact .inl rfl
  | layout _ _ => exact .inl rfl

theorem verify_error {cached : Fingerprint} {cause : CacheError}
    (h : fingerprint.verify cached = .error cause) : cause.severity = .cache := by
  unfold Fingerprint.verify at h
  split at h <;> cases h
  rfl

/-- **Loading a container fails so that the session is disabled, or because the bytes are
    inconsistent.** -/
theorem loadContainer_error {cause : CacheError}
    (h : loadContainer files path fingerprint known = .error cause) :
    cause.severity = .cache ∨ ∃ image corruption, files.map path = .ok image ∧
      cause = .corrupt corruption ∧ Container.Inconsistent fingerprint image corruption := by
  unfold loadContainer at h
  split at h
  · cases h
  · cases h
    exact .inl rfl
  rename_i image hfile
  rcases except_bind_eq_error.1 h with hrefused | ⟨container, haccepted, h⟩
  · rcases except_bind_eq_error.1 hrefused with hheader | ⟨_, -, hdone⟩
    · refine (severity_of_refusal (Header.refusal_of_decode hheader) fingerprint).imp_right ?_
      exact fun ⟨corruption, hcause, hbroken⟩ => ⟨image, corruption, hfile, hcause, hbroken⟩
    · cases hdone
  rcases except_bind_eq_error.1 h with hverify | ⟨_, hverified, h⟩
  · exact .inl (verify_error hverify)
  rcases except_bind_eq_error.1 h with hindex | ⟨index, hindex, h⟩
  · rcases Container.refusal_of_loadIndex hindex with ⟨corruption, rfl⟩ | ⟨fault, rfl⟩
    · exact .inr ⟨image, corruption, hfile, rfl,
        .contents container corruption haccepted hverified (.inl hindex)⟩
    · exact .inl rfl
  rcases except_bind_eq_error.1 h with hstrings | ⟨strings, -, h⟩
  · obtain ⟨corruption, rfl⟩ := Container.corrupt_of_strings hstrings
    exact .inr ⟨image, corruption, hfile, rfl,
      .contents container corruption haccepted hverified (.inr ⟨⟨index, hindex⟩, hstrings⟩)⟩
  · split at h <;> cases h
    exact .inl rfl

/-- **Bytes that are inconsistent are not loaded, for what is wrong with them.** -/
theorem loadContainer_of_inconsistent {image : Bytes} {cause : Corruption}
    (hfile : files.map path = .ok image) (h : Container.Inconsistent fingerprint image cause) :
    loadContainer files path fingerprint known = .error (.corrupt cause) := by
  cases h with
  | collector raw hrecognized hstored hunknown =>
    have hrefused : Container.ofBytes image = .error (.corrupt (.unknownCollector raw)) := by
      simp only [Container.ofBytes, Header.decode_of_unknownCollector hrecognized hstored hunknown,
        bind, Except.bind]
    simp only [loadContainer, hfile, hrefused, bind, Except.bind]
  | contents container cause haccepted hverified hcorrupt =>
    rcases hcorrupt with hindex | ⟨⟨index, hindex⟩, hstrings⟩
    · simp only [loadContainer, hfile, haccepted, hverified, hindex, bind, Except.bind]
    · simp only [loadContainer, hfile, haccepted, hverified, hindex, hstrings, bind, Except.bind]

/-! ## 2. What a session shows that was started -/

/-- A session that shows the container in the file, and the symbols with its strings. -/
def Loads (files : FileStore) (path : String) (fingerprint : Fingerprint) (known : SymbolTable)
    (session : Session) (symbols : SymbolTable) : Prop :=
  ∃ image container strings, files.map path = .ok image ∧ Container.ofBytes image = .ok container ∧
    fingerprint.verify container.header.fingerprint = .ok () ∧ session.container = some container ∧
    container.loadIndex = .ok session.index ∧ container.strings = .ok strings ∧
    known.loadStrings strings = .ok symbols ∧ session.failed = false ∧ session.state.canRead = true

/-- A session that shows nothing of any container, and symbols as they were; it is disabled if there
    is a file. -/
structure Bare (files : FileStore) (path : String) (known : SymbolTable) (session : Session)
    (symbols : SymbolTable) : Prop where
  header : session.loadedHeader? = none
  index : session.index = .empty
  finds : ∀ query, (session.find query).1 = none
  preload : session.preloadEntries = []
  symbols : symbols = known
  failed : session.failed = true ↔ files.map path ≠ .error .notFound
  closed : session.failed = true → session.state = .closed ∧ session.arena = none

/-- A session without a container is bare. -/
theorem bare_of_container {session : Session} (hcontainer : session.container = none)
    (hindex : session.index = .empty)
    (hfailed : session.failed = true ↔ files.map path ≠ .error .notFound)
    (hclosed : session.failed = true → session.state = .closed ∧ session.arena = none) :
    Bare files path known session known := by
  refine ⟨?_, hindex, fun query => ?_, ?_, rfl, hfailed, hclosed⟩
  · simp only [loadedHeader?, hcontainer, Option.map_none]
  · simp only [find, hcontainer, Option.isNone_none, Bool.or_true, if_true]
  · simp only [preloadEntries, hcontainer, Option.isNone_none, Bool.or_true, if_true]

/-- Opening for writing changes nothing but the arena, and not even this in a session that is
    disabled. -/
theorem openForWriting_eq (session : Session) :
    ∃ arena, session.openForWriting = { session with arena } ∧
      (session.failed = true → arena = session.arena) := by
  unfold openForWriting
  split
  · rename_i hwrites
    refine ⟨_, rfl, fun hfailed => ?_⟩
    simp [hfailed] at hwrites
  · exact ⟨session.arena, rfl, fun _ => rfl⟩

theorem start_of_reading {reading : Session} {symbols : SymbolTable}
    (h : (unopened config fingerprint).openForReading files known = .ok (reading, symbols)) :
    ∃ arena, (reading.failed = true → arena = reading.arena) ∧
      Session.start files config fingerprint known =
        .ok ({ reading with
          arena
          state := .ofAccess reading.container.isSome arena.isSome }, symbols) := by
  obtain ⟨arena, hopen, harena⟩ := reading.openForWriting_eq
  refine ⟨arena, harena, except_bind_eq_ok.2 ⟨_, h, ?_⟩⟩
  simp only [hopen]
  rfl

/-- A session is started on a container that can be loaded, by any policy. -/
theorem start_of_loaded {container : Container} {index : EntryIndex} {symbols : SymbolTable}
    (hpath : config.loadPath = some path)
    (hload : loadContainer files path fingerprint known = .ok (some (container, index, symbols))) :
    ∃ arena, Session.start files config fingerprint known =
      .ok ({ unopened config fingerprint with
        container := some container
        index
        arena
        state := .ofAccess true arena.isSome }, symbols) := by
  have hread : (unopened config fingerprint).openForReading files known =
      .ok ({ unopened config fingerprint with container := some container, index }, symbols) := by
    simp only [openForReading, unopened, hpath, hload]
  obtain ⟨arena, -, hstart⟩ := start_of_reading hread
  exact ⟨arena, hstart⟩

/-- **A lenient policy goes on, disabled, when the container cannot be loaded**, unless its bytes
    are inconsistent; the symbols are as they were. -/
theorem start_of_error {cause : CacheError} (hstrict : config.strict = false)
    (hpath : config.loadPath = some path)
    (hload : loadContainer files path fingerprint known = .error cause)
    (hcache : cause.severity = .cache) :
    Session.start files config fingerprint known =
      .ok ({ unopened config fingerprint with failed := true }, known) := by
  have hgoes : mustStop config cause = false := by
    simp only [mustStop, hstrict, hcache, Bool.false_and, Bool.or_false]
    rfl
  have hread : (unopened config fingerprint).openForReading files known =
      .ok ({ unopened config fingerprint with failed := true }, known) := by
    simp only [openForReading, unopened, hpath, hload, report, hgoes, hcache,
      Bool.false_eq_true, if_false, if_true]
  obtain ⟨arena, harena, hstart⟩ := start_of_reading hread
  obtain rfl := harena rfl
  exact hstart

/-- Inconsistent bytes stop the process, by any policy. -/
theorem start_of_corrupt {cause : Corruption} (hpath : config.loadPath = some path)
    (hload : loadContainer files path fingerprint known = .error (.corrupt cause)) :
    Session.start files config fingerprint known =
      .error (.reported .opening (.corrupt cause)) := by
  have hstops : mustStop config (.corrupt cause) = true := rfl
  simp only [Session.start, openForReading, unopened, hpath, hload, report, hstops, if_true]
  rfl

/-- A session can be started if the container can be loaded, or if it cannot for a cause that
    disables it. -/
theorem start_of_usable (hstrict : config.strict = false) (hpath : config.loadPath = some path)
    (husable : ∀ cause, loadContainer files path fingerprint known = .error cause →
      cause.severity = .cache) :
    ∃ session symbols, Session.start files config fingerprint known = .ok (session, symbols) ∧
      (Loads files path fingerprint known session symbols ∨
        Bare files path known session symbols) := by
  cases hload : loadContainer files path fingerprint known with
  | ok loaded =>
    obtain _ | ⟨container, index, symbols⟩ := loaded
    · have hread : (unopened config fingerprint).openForReading files known =
          .ok (unopened config fingerprint, known) := by
        simp only [openForReading, unopened, hpath, hload]
      obtain ⟨arena, -, hstart⟩ := start_of_reading hread
      have henabled : (unopened config fingerprint).failed ≠ true := Bool.false_ne_true
      refine ⟨_, _, hstart, .inr
        (bare_of_container rfl rfl ?_ fun hfailed => absurd hfailed henabled)⟩
      exact ⟨fun hfailed => absurd hfailed henabled,
        fun hfile => absurd (loadContainer_none hload) hfile⟩
    · obtain ⟨arena, hstart⟩ := start_of_loaded hpath hload
      obtain ⟨image, strings, hfile, haccepted, hverified, hindex, hstrings, hsymbols⟩ :=
        loadContainer_eq_some.1 hload
      refine ⟨_, _, hstart, .inl ⟨image, container, strings, hfile, haccepted, hverified,
        rfl, hindex, hstrings, hsymbols, rfl, ?_⟩⟩
      cases arena <;> rfl
  | error cause =>
    have hstart := start_of_error hstrict hpath hload (husable cause hload)
    refine ⟨_, _, hstart, .inr (bare_of_container rfl rfl ⟨fun _ hmissing => ?_, fun _ => rfl⟩
      fun _ => ⟨rfl, rfl⟩)⟩
    simp only [loadContainer, hmissing] at hload
    cases hload

/-- **If the policy is lenient a session can be started on any file, unless the bytes are
    inconsistent.** The process stops because of the file exactly if its bytes are inconsistent, for
    what is wrong with them. If they are not, or if there is no file, a session is started: either
    it shows the container in the file and the symbols have its strings; or it shows nothing, finds
    nothing, and the symbols are as they were, and it is disabled, unless there is no file. -/
theorem start_lenient (hstrict : config.strict = false) (hpath : config.loadPath = some path) :
    (∀ cause, Session.start files config fingerprint known =
      .error (.reported .opening (.corrupt cause)) ↔
      ∃ image, files.map path = .ok image ∧ Container.Inconsistent fingerprint image cause) ∧
    ((∀ image cause, files.map path = .ok image → ¬Container.Inconsistent fingerprint image cause) →
      ∃ session symbols, Session.start files config fingerprint known = .ok (session, symbols) ∧
        (Loads files path fingerprint known session symbols ∨
          Bare files path known session symbols)) := by
  refine ⟨fun cause => ⟨fun hstop => ?_, fun ⟨image, hfile, hbroken⟩ => ?_⟩, fun hsane => ?_⟩
  · by_cases husable : ∀ cause, loadContainer files path fingerprint known = .error cause →
      cause.severity = .cache
    · obtain ⟨session, symbols, hstart, -⟩ := start_of_usable hstrict hpath husable
      cases hstart.symm.trans hstop
    · obtain ⟨other, hload, hfatal⟩ : ∃ other,
        loadContainer files path fingerprint known = .error other ∧
          other.severity ≠ .cache := by simpa using husable
      obtain ⟨image, corruption, hfile, rfl, hbroken⟩ :=
        (loadContainer_error hload).resolve_left hfatal
      cases (start_of_corrupt hpath hload).symm.trans hstop
      exact ⟨image, hfile, hbroken⟩
  · exact start_of_corrupt hpath (loadContainer_of_inconsistent hfile hbroken)
  · refine start_of_usable hstrict hpath fun cause hload =>
      (loadContainer_error hload).resolve_right ?_
    rintro ⟨image, corruption, hfile, -, hbroken⟩
    exact hsane image corruption hfile hbroken

/-- The container of one entry whose kind does not exist. -/
def strangeContainer : Container :=
  { preloadContainer with bytes := preloadImage.overwrite 112 (ofU32 9) }

theorem inconsistent_strangeContainer :
    Container.Inconsistent plain strangeContainer.bytes (.unknownEntryKind 9) := by
  have hheader : Header.decode strangeContainer.bytes = .ok strangeContainer.header := by
    decide +kernel
  exact .contents strangeContainer _ (except_bind_eq_ok.2 ⟨_, hheader, rfl⟩)
    rfl (.inl (by decide +kernel))

/-- A lenient policy: one stray byte disables the session, an entry of a kind that does not exist
    stops the process. -/
theorem start_lenient_strange : updating.strict = false ∧ updating.loadPath = some "app" ∧
    (∃ session symbols, Session.start (fileAtApp #[1]) updating plain idle =
      .ok (session, symbols) ∧
      Bare (fileAtApp #[1]) "app" idle session symbols ∧ session.failed = true) ∧
    Session.start (fileAtApp strangeContainer.bytes) updating plain idle =
      .error (.reported .opening (.corrupt (.unknownEntryKind 9))) := by
  have hstray : (fileAtApp #[1]).map "app" = .ok #[1] := map_fileAtApp _
  have hrefused : Container.ofBytes #[1] = .error (.sizeMismatch 96 1) := by decide
  have hsane : ∀ image cause, (fileAtApp #[1]).map "app" = .ok image →
      ¬Container.Inconsistent plain image cause := by
    intro image cause hfile hbroken
    cases hstray.symm.trans hfile
    cases hbroken with
    | collector raw hrecognized => exact absurd hrecognized.room (by decide)
    | contents container cause haccepted => cases hrefused.symm.trans haccepted
  refine ⟨rfl, rfl, ?_, ?_⟩
  · obtain ⟨session, symbols, hstart, ⟨image, container, -, hmap, haccepted, -⟩ | hbare⟩ :=
      (@start_lenient (fileAtApp #[1]) "app" updating plain idle rfl rfl).2 hsane
    · cases hstray.symm.trans hmap
      cases hrefused.symm.trans haccepted
    · refine ⟨session, symbols, hstart, hbare, hbare.failed.2 ?_⟩
      rw [hstray]
      intro hmissing
      cases hmissing
  · exact ((@start_lenient (fileAtApp strangeContainer.bytes) "app" updating plain idle rfl rfl).1
      _).2
      ⟨_, map_fileAtApp _, inconsistent_strangeContainer⟩

end Session

end CodeVault
