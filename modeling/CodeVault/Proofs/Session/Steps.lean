import CodeVault.Proofs.Index.Flags
import CodeVault.Proofs.Session.Store

/-!
# What one call does to a session

* `Session.after` is the session after a call, whatever its outcome;
* **a call changes what a run may change, and nothing else** (`Steps`, `steps_after`): entries stay
  what they are, with the bytes that they have; the one whose load fails is marked, and the one that
  was stored is the next of this run.
-/

namespace CodeVault.Session

open Arena Bytes

/-! ## 1. Calls -/

/-- What a process may ask of a session between opening and closing it. -/
inductive Call where
  | store (artifact : Artifact)
  | find (query : Query)
  | load (id : EntryId)
  | lookup (query : Query)
  | preloadEntries
  | invalidate (id : EntryId)

/-- The session after a call, whatever its outcome. -/
def after (process : LiveProcess) (session : Session) : Call → Session
  | .store artifact => stateOf (store process artifact session)
  | .find query => (session.find query).2
  | .load id => stateOf (load process id session)
  | .lookup query => stateOf (lookup process query session)
  | .preloadEntries => session
  | .invalidate id => (session.invalidate id).2

/-- The id that a call answers for an artifact that it has stored. -/
def deposited? (process : LiveProcess) (session : Session) : Call → Option EntryId
  | .store artifact =>
    match store process artifact session with
    | .ok id _ => some id
    | .error _ _ => none
  | _ => none

/-- An artifact that gets an id was stored. -/
theorem store_of_deposited? {process : LiveProcess} {session : Session} {artifact : Artifact}
    {id : EntryId} (h : session.deposited? process (.store artifact) = some id) :
    store process artifact session = .ok id (session.after process (.store artifact)) := by
  unfold deposited? at h
  dsimp only at h
  split at h
  · rename_i hstore
    cases h
    rw [Session.after, hstore, stateOf_ok]
  · cases h

/-- Whether a load comes to read the artifact of an entry and finds an error there. A load that is
    refused before, as all are of what has failed already, reads nothing. -/
def cannotRead (process : LiveProcess) (session : Session) (id : EntryId) : Bool :=
  match id, session.container, session.index.get? id with
  | .loaded _, some container, some entry =>
    !session.failed && !entry.flags.loadFail &&
      match readEntry process container entry with
      | .error (.error _) => true
      | _ => false
  | _, _, _ => false

/-- The entry whose load fails in a call. -/
def failing? (process : LiveProcess) (session : Session) : Call → Option EntryId
  | .load id => if session.cannotRead process id then some id else none
  | .lookup query =>
    match session.find query with
    | (some id, found) => if found.cannotRead process id then some id else none
    | (none, _) => none
  | _ => none

theorem loaded_of_cannotRead {process : LiveProcess} {session : Session} {id : EntryId}
    (h : session.cannotRead process id = true) : ∃ i, id = .loaded i := by
  cases id with
  | loaded i => exact ⟨i, rfl⟩
  | stored i => cases h

/-- Only loaded entries fail. -/
theorem loaded_of_failing? {process : LiveProcess} {session : Session} {call : Call} {id : EntryId}
    (h : session.failing? process call = some id) : ∃ i, id = .loaded i := by
  unfold failing? at h
  split at h
  · split at h
    · rename_i hread
      cases h
      exact loaded_of_cannotRead hread
    · cases h
  · split at h
    · split at h
      · rename_i hread
        cases h
        exact loaded_of_cannotRead hread
      · cases h
    · cases h
  · cases h

/-! ## 2. Steps -/

/-- What a call may do; `failing` is the entry whose load fails, and `deposited` the one that is
    stored. -/
structure Steps (failing deposited : Option EntryId) (before after : Session) : Prop where
  config : after.config = before.config
  fingerprint : after.fingerprint = before.fingerprint
  state : after.state = before.state
  container : after.container = before.container
  failed : before.failed = true → after.failed = true
  arena : ∀ ⦃arena⦄, before.arena = some arena →
    ∃ grown, after.arena = some grown ∧ PartAt grown.bytes 0 arena.bytes
  index : before.index.Evolves failing after.index
  stored : after.index.stored.size = before.index.stored.size + deposited.toList.length
  deposit : ∀ ⦃id⦄, deposited = some id → id = .stored before.index.stored.size ∧
    ∃ entry bytes, after.entry? id = some entry ∧ after.payload? id entry = some bytes ∧
      entry.kind ≠ .none ∧ entry.flags.loadFail = false

theorem payload?_loaded {session : Session} {i : Nat} {entry : Entry} {bytes : Bytes} :
    session.payload? (.loaded i) entry = some bytes ↔
      ∃ container, session.container = some container ∧ container.payload entry = .ok bytes := by
  simp only [Session.payload?, Option.bind_eq_bind, Option.bind_eq_some_iff, toOption_eq_some]

/-- What could be read of an entry can still be read, and is the same. -/
theorem Steps.payload? {failing deposited : Option EntryId} {before after : Session} {id : EntryId}
    {entry now : Entry} {bytes : Bytes} (h : Steps failing deposited before after)
    (hnow : entry.Became now) (hbytes : before.payload? id entry = some bytes) :
    after.payload? id now = some bytes := by
  rw [hnow.same]
  cases id with
  | loaded i =>
    simp only [Session.payload?, h.container]
    exact hbytes
  | stored i =>
    obtain ⟨arena, harena, hslice⟩ := Option.bind_eq_some_iff.1 hbytes
    obtain ⟨grown, hgrown, hpart⟩ := h.arena harena
    have hpart' := hpart.trans (partAt_of_slice? hslice)
    have hsize := size_of_slice? hslice
    rw [Nat.zero_add] at hpart'
    refine Option.bind_eq_some_iff.2 ⟨grown, hgrown, ?_⟩
    rw [← hsize]
    exact hpart'.slice?

variable {session : Session} {process : LiveProcess}

/-- A change of the index that adds nothing, with whatever happens to counters. -/
theorem steps_of_evolves {failing : Option EntryId} {index : EntryIndex}
    (h : session.index.Evolves failing index)
    (hsize : index.stored.size = session.index.stored.size) {failed : Bool}
    (hfailed : session.failed = true → failed = true) (counters : Counters) :
    Steps failing none session { session with index, failed, counters } :=
  ⟨rfl, rfl, rfl, rfl, hfailed, fun arena harena => ⟨arena, harena, partAt_self _⟩, h, hsize,
    fun _ h => nomatch h⟩

theorem Steps.refl (session : Session) : Steps none none session session :=
  steps_of_evolves (.refl _) rfl (fun h => h) session.counters

theorem steps_counted (session : Session) (counters : Counters) :
    Steps none none session { session with counters } :=
  steps_of_evolves (.refl _) rfl (fun h => h) counters

/-- A failure that is reported changes nothing but whether the session is disabled. -/
theorem reportAndFail_eq {α : Type} (session : Session) (operation : Operation)
    (cause : CacheError) :
    ∃ stop failed, (session.failed = true → failed = true) ∧
      (reportAndFail operation cause session : EStateM.Result Stop Session α)
        = .error stop { session with failed } := by
  by_cases hstop : mustStop session.config cause = true
  · refine ⟨.reported operation cause, session.failed, fun h => h, ?_⟩
    simp [reportAndFail, report, bind, EStateM.bind, hstop]
  · by_cases hcache : cause.severity = .cache
    · have hreport : report operation cause session = .ok () { session with failed := true } := by
        simp [report, hstop, hcache]
      exact ⟨.error cause, true, fun _ => rfl, (bind_of_ok hreport).trans rfl⟩
    · have hreport : report operation cause session = .ok () session := by
        simp [report, hstop, hcache]
      exact ⟨.error cause, session.failed, fun h => h, (bind_of_ok hreport).trans rfl⟩

/-- A change of the index that adds nothing, and a failure that is reported then. -/
theorem steps_reportAndFail {α : Type} {failing : Option EntryId} {index : EntryIndex}
    (h : session.index.Evolves failing index)
    (hsize : index.stored.size = session.index.stored.size) (counters : Counters)
    (operation : Operation) (cause : CacheError) :
    Steps failing none session
      (stateOf (reportAndFail operation cause { session with index, counters } :
        EStateM.Result Stop Session α)) := by
  obtain ⟨stop, failed, hfailed, hreport⟩ :=
    reportAndFail_eq (α := α) { session with index, counters } operation cause
  rw [hreport]
  exact steps_of_evolves h hsize hfailed counters

/-! ## 3. Loading -/

/-- **What a load comes to**: it is refused, or stops the process, and the session is as it was; or
    the artifact of its entry is read, and the entry is marked as loaded; or it cannot be read, and
    the entry is marked as failed before that is reported. -/
theorem load_cases (process : LiveProcess) (session : Session) (id : EntryId) :
    (∃ stop, session.cannotRead process id = false ∧
      load process id session = .error stop session) ∨
    (∃ container entry artifact, session.cannotRead process id = false ∧ session.failed = false ∧
      session.container = some container ∧ session.entry? id = some entry ∧
      entry.flags.loadFail = false ∧
      readEntry process container entry = .ok artifact ∧
      load process id session = .ok artifact { session with
        index := session.index.markLoaded id
        counters := session.counters.recordLoad }) ∨
    ∃ cause, session.cannotRead process id = true ∧
      load process id session = reportAndFail .loading cause { session with
        index := session.index.markLoadFail id
        counters := session.counters.recordLoadFailure } := by
  cases id with
  | stored i => exact .inl ⟨_, rfl, rfl⟩
  | loaded i =>
    by_cases hfailed : session.failed = true
    · refine .inl ⟨.error .disabled, ?_, by simp only [load, hfailed, if_true]⟩
      simp only [cannotRead, hfailed, Bool.not_true, Bool.false_and]
      split <;> rfl
    have henabled : session.failed = false := by simpa using hfailed
    obtain hcontainer | ⟨container, hcontainer⟩ := Option.eq_none_or_eq_some session.container
    · refine .inl ⟨.error (.notOpen .read), by simp only [cannotRead, hcontainer], ?_⟩
      simp only [load, henabled, hcontainer, Bool.false_eq_true, if_false]
    obtain hentry | ⟨entry, hentry⟩ := Option.eq_none_or_eq_some (session.index.get? (.loaded i))
    · -- That an entry is missing stops the process by any policy.
      refine .inl ⟨.reported .loading (.corrupt (.missingEntry (.loaded i))),
        by simp only [cannotRead, hcontainer, hentry], ?_⟩
      simp only [load, henabled, hcontainer, hentry, Bool.false_eq_true, if_false]
      rfl
    by_cases hmarked : entry.flags.loadFail = true
    · refine .inl ⟨.error (.previouslyFailed entry.id), ?_, ?_⟩
      · simp only [cannotRead, hcontainer, hentry, hmarked, Bool.not_true, Bool.and_false,
          Bool.false_and]
      · simp only [load, henabled, hcontainer, hentry, hmarked, Bool.false_eq_true,
          if_false, if_true]
    have hunmarked : entry.flags.loadFail = false := by simpa using hmarked
    cases hread : readEntry process container entry with
    | ok artifact =>
      refine .inr (.inl ⟨container, entry, artifact, ?_, henabled, hcontainer, hentry, hunmarked,
        hread, ?_⟩)
      · simp only [cannotRead, hcontainer, hentry, hread, Bool.and_false]
      · simp only [load, henabled, hcontainer, hentry, hunmarked, hread,
          Bool.false_eq_true, if_false]
    | error fault =>
      cases fault with
      | halt why =>
        refine .inl ⟨.halt why, by simp only [cannotRead, hcontainer, hentry, hread,
          Bool.and_false], ?_⟩
        simp only [load, henabled, hcontainer, hentry, hunmarked, hread,
          Bool.false_eq_true, if_false]
      | error cause =>
        refine .inr (.inr ⟨cause, ?_, ?_⟩)
        · simp only [cannotRead, henabled, hcontainer, hentry, hunmarked, hread, Bool.not_false,
            Bool.and_self]
        · simp only [load, henabled, hcontainer, hentry, hunmarked, hread,
            Bool.false_eq_true, if_false]

/-- **A load marks the entry that it was for: as loaded, or as failed if its artifact could not be
    read.** -/
theorem steps_load (id : EntryId) :
    Steps (if session.cannotRead process id then some id else none) none session
      (stateOf (load process id session)) := by
  rcases load_cases process session id with
    ⟨stop, hquiet, hload⟩ | ⟨-, -, artifact, hquiet, -, -, -, -, -, hload⟩ | ⟨cause, hbroken, hload⟩
  · rw [hquiet, hload]
    exact .refl session
  · rw [hquiet, hload]
    exact steps_of_evolves (EntryIndex.evolves_markLoaded _) EntryIndex.size_stored_flag
      (fun h => h) _
  · rw [hbroken, hload]
    exact steps_reportAndFail (EntryIndex.evolves_markLoadFail _) EntryIndex.size_stored_flag _ _ _

/-- Finding an entry counts, unless it is not looked for. -/
theorem find_counts (query : Query) : (session.find query).2 = session ∨
    ∃ hit, (session.find query).2 = { session with
      counters := session.counters.recordLookup hit } := by
  unfold find
  split
  · exact .inl rfl
  · exact .inr ⟨_, rfl⟩

/-- Finding an entry only counts. -/
theorem find_eq (query : Query) :
    ∃ counters, (session.find query).2 = { session with counters } := by
  rcases session.find_counts query with hsame | ⟨hit, hcounted⟩
  · exact ⟨session.counters, hsame⟩
  · exact ⟨_, hcounted⟩

/-- A look-up ends as finding does, or as the load of what was found. -/
theorem stateOf_lookup (process : LiveProcess) (session : Session) (query : Query) :
    stateOf (lookup process query session) =
      match session.find query with
      | (none, found) => found
      | (some id, found) => stateOf (load process id found) := by
  rcases hfind : session.find query with ⟨hit, found⟩
  cases hit with
  | none => simp only [lookup, hfind, stateOf_ok]
  | some id =>
    simp only [lookup, hfind]
    cases hload : load process id found with
    | ok artifact after => rfl
    | error stop after => cases stop <;> rfl

/-- **What a look-up comes to**: it counts; and if it has found something, it ends in the state in
    which the load of that ends, and fails to load what that load fails to load. -/
theorem lookup_cases (process : LiveProcess) (session : Session) (query : Query) :
    (∃ counters, stateOf (lookup process query session) = { session with counters } ∧
      session.failing? process (.lookup query) = none) ∨
    ∃ id counters, stateOf (lookup process query session) =
      stateOf (load process id { session with counters }) ∧
      session.failing? process (.lookup query) =
        if cannotRead process { session with counters } id then some id else none := by
  obtain ⟨counters, hcounted⟩ := session.find_eq query
  rcases hfind : session.find query with ⟨hit, found⟩
  obtain rfl : found = { session with counters } := by rw [← hcounted, hfind]
  cases hit with
  | none => exact .inl ⟨counters, by rw [stateOf_lookup, hfind], by simp only [failing?, hfind]⟩
  | some id =>
    exact .inr ⟨id, counters, by rw [stateOf_lookup, hfind], by simp only [failing?, hfind]⟩

/-- A look-up counts, and then loads what it found. -/
theorem steps_lookup (query : Query) :
    Steps (session.failing? process (.lookup query)) none session
      (stateOf (lookup process query session)) := by
  rcases lookup_cases process session query with
    ⟨counters, hlookup, hquiet⟩ | ⟨id, counters, hlookup, hfailing⟩
  · rw [hlookup, hquiet]
    exact steps_counted session counters
  · have hload : Steps _ none _ (stateOf (load process id { session with counters })) :=
      steps_load id
    rw [hlookup, hfailing]
    exact ⟨hload.config, hload.fingerprint, hload.state, hload.container, hload.failed, hload.arena,
      hload.index, hload.stored, hload.deposit⟩

/-! ## 4. Storing -/

/-- An arena that has grown, and a failure that is reported then. -/
theorem steps_grown {arena grown : Arena} (harena : session.arena = some arena)
    (hgrown : PartAt grown.bytes 0 arena.bytes) {failed : Bool}
    (hfailed : session.failed = true → failed = true) (counters : Counters) :
    Steps none none session { session with arena := some grown, failed, counters } := by
  refine ⟨rfl, rfl, rfl, rfl, hfailed, fun other hother => ⟨grown, rfl, ?_⟩, .refl _, rfl,
    fun _ h => nomatch h⟩
  cases harena.symm.trans hother
  exact hgrown

/-- What storing answers when the artifact was written. -/
theorem store_of_ok {artifact : Artifact} {arena grown : Arena} {id : EntryId} {index : EntryIndex}
    (hfailed : ¬session.failed = true) (harena : session.arena = some arena)
    (h : writeEntry process session.config.offline artifact session.index arena =
      .ok (id, index) grown) :
    store process artifact session = .ok id
      { session with
        arena := some grown
        index
        counters := session.counters.recordStore artifact.kind } := by
  simp only [store, hfailed, harena, h, Bool.false_eq_true, if_false]

/-- The session after an artifact was stored. -/
def depositing (session : Session) (artifact : Artifact) (layout : PayloadLayout) (arena : Arena)
    (counters : Counters) : Session :=
  { session with
    arena := some arena
    index :=
      { session.index with
        stored := session.index.stored.push
          (session.index.linked (entryOf session.config.offline artifact layout)) }
    counters }

section Depositing

variable {artifact : Artifact} {arena after : Arena} {layout : PayloadLayout} {payload : Bytes}

/-- The entry of an artifact that was stored, and its bytes. -/
theorem payload?_depositing
    (hstored : Stored process session.config.offline artifact arena after layout payload)
    (counters : Counters) :
    ∃ entry, Session.entry? (session.depositing artifact layout after counters)
        (.stored session.index.stored.size) = some entry ∧
      Session.payload? (session.depositing artifact layout after counters)
        (.stored session.index.stored.size) entry = some payload ∧
      entry.kind ≠ .none ∧ entry.flags.loadFail = false := by
  refine ⟨_, Array.getElem?_push_size, ?_, ?_, ?_⟩
  · rw [EntryIndex.linked_eq]
    show after.bytes.slice? (UInt32.ofNat layout.offset).toNat (UInt32.ofNat layout.size).toNat = _
    rw [toNat_ofNat_of_lt_wordSpace hstored.offset_lt, toNat_ofNat_of_lt_wordSpace hstored.size_lt,
      hstored.describes.size]
    exact hstored.partAt.slice?
  · rw [EntryIndex.linked_eq]
    exact hstored.kind
  · rw [EntryIndex.linked_eq]
    rfl

/-- **An artifact that is stored is the next of this run, and its bytes can be read.** -/
theorem steps_stored (harena : session.arena = some arena)
    (hstored : Stored process session.config.offline artifact arena after layout payload)
    (counters : Counters) :
    Steps none (some (.stored session.index.stored.size)) session
      (session.depositing artifact layout after counters) := by
  refine ⟨rfl, rfl, rfl, rfl, fun h => h, fun other hother => ⟨after, rfl, ?_⟩,
    EntryIndex.evolves_push _, Array.size_push .., ?_⟩
  · cases harena.symm.trans hother
    exact ⟨#[], zeros (paddingAfter arena.position) ++ payload,
      by rw [hstored.bytes, Array.empty_append, Array.append_assoc], rfl⟩
  · intro id hid
    cases hid
    obtain ⟨entry, hentry, hbytes, hkind, hfail⟩ := payload?_depositing hstored counters
    exact ⟨rfl, entry, payload, hentry, hbytes, hkind, hfail⟩

/-- **What storing an artifact comes to**, by what comes of writing its entry: it is counted with
    its kind; or the session is as it was; or it has the arena that the failure leaves, has counted
    it or stops, and may be disabled. -/
theorem store_outcomes (process : LiveProcess) (session : Session) (artifact : Artifact) :
    (∃ arena after id index, session.arena = some arena ∧
      writeEntry process session.config.offline artifact session.index arena =
        .ok (id, index) after ∧
      store process artifact session = .ok id { session with
        arena := some after
        index
        counters := session.counters.recordStore artifact.kind }) ∨
    (∃ stop, store process artifact session = .error stop session) ∨
    ∃ stop arena fault grown failed counters, session.arena = some arena ∧
      writeEntry process session.config.offline artifact session.index arena = .error fault grown ∧
      (session.failed = true → failed = true) ∧
      (counters = session.counters ∨ counters = session.counters.recordStoreFailure) ∧
      store process artifact session =
        .error stop { session with arena := some grown, failed, counters } := by
  by_cases hfailed : session.failed = true
  · exact .inr (.inl ⟨_, by simp only [store, hfailed, if_true]; rfl⟩)
  obtain harena | ⟨arena, harena⟩ := Option.eq_none_or_eq_some session.arena
  · exact .inr (.inl ⟨_, by simp only [store, hfailed, harena]; rfl⟩)
  cases hrun : writeEntry process session.config.offline artifact session.index arena with
  | ok added after =>
    obtain ⟨id, index⟩ := added
    exact .inl ⟨arena, after, id, index, harena, hrun, store_of_ok hfailed harena hrun⟩
  | error fault grown =>
    cases fault with
    | halt why =>
      refine .inr (.inr ⟨.halt why, arena, _, grown, session.failed, session.counters, harena, hrun,
        fun h => h, .inl rfl, ?_⟩)
      simp only [store, hfailed, harena, hrun, Bool.false_eq_true, if_false]
    | error cause =>
      obtain ⟨stop, failed, hdisabled, hreport⟩ := reportAndFail_eq (α := EntryId)
        { session with
          arena := some grown
          counters := session.counters.recordStoreFailure } .storing cause
      refine .inr (.inr ⟨stop, arena, _, grown, failed, session.counters.recordStoreFailure,
        harena, hrun, hdisabled, .inr rfl, ?_⟩)
      rw [← hreport]
      simp only [store, hfailed, harena, hrun, Bool.false_eq_true, if_false]

/-- **What storing an artifact comes to**: it is stored; or it is refused, and the session is as it
    was, or has an arena that has grown, and may be disabled. -/
theorem store_cases (process : LiveProcess) (session : Session) (artifact : Artifact) :
    (∃ arena after layout payload counters, session.arena = some arena ∧
      Stored process session.config.offline artifact arena after layout payload ∧
      store process artifact session = .ok (.stored session.index.stored.size)
        (session.depositing artifact layout after counters)) ∨
    (∃ stop, store process artifact session = .error stop session) ∨
    ∃ stop arena grown failed counters, session.arena = some arena ∧
      PartAt grown.bytes 0 arena.bytes ∧
      (session.failed = true → failed = true) ∧
      store process artifact session =
        .error stop { session with arena := some grown, failed, counters } := by
  rcases store_outcomes process session artifact with
    ⟨arena, after, id, index, harena, hrun, hstore⟩ | hrefused |
    ⟨stop, arena, fault, grown, failed, counters, harena, hrun, hfailed, -, hstore⟩
  · obtain ⟨layout, payload, hstored, rfl, rfl⟩ := writeEntry_ok hrun
    exact .inl ⟨arena, after, layout, payload, _, harena, hstored, hstore⟩
  · exact .inr (.inl hrefused)
  · exact .inr (.inr ⟨stop, arena, grown, failed, counters, harena,
      keeps_writeEntry.error (partAt_self _) hrun, hfailed, hstore⟩)

/-- What a session that stored an artifact has come to. -/
theorem store_ok {id : EntryId} {last : Session}
    (h : store process artifact session = .ok id last) :
    ∃ arena after layout payload counters, session.arena = some arena ∧
      Stored process session.config.offline artifact arena after layout payload ∧
      id = .stored session.index.stored.size ∧
      last = session.depositing artifact layout after counters := by
  rcases store_cases process session artifact with
    ⟨arena, after, layout, payload, counters, harena, hstored, hstore⟩ | ⟨stop, hstore⟩ |
    ⟨stop, _, _, _, _, -, -, -, hstore⟩
  · cases hstore.symm.trans h
    exact ⟨arena, after, layout, payload, counters, harena, hstored, rfl, rfl⟩
  · cases hstore.symm.trans h
  · cases hstore.symm.trans h

end Depositing

/-- **Whatever comes of storing an artifact**, only what is stored is added. -/
theorem steps_store (artifact : Artifact) :
    Steps none (session.deposited? process (.store artifact)) session
      (stateOf (store process artifact session)) := by
  rcases store_cases process session artifact with
    ⟨arena, after, layout, payload, counters, harena, hstored, hstore⟩ | ⟨stop, hstore⟩ |
    ⟨stop, arena, grown, failed, counters, harena, hgrown, hfailed, hstore⟩
  · simp only [deposited?, hstore]
    exact steps_stored harena hstored counters
  · simp only [deposited?, hstore]
    exact .refl session
  · simp only [deposited?, hstore]
    exact steps_grown harena hgrown hfailed counters

/-! ## 5. All calls -/

/-- **A call changes what a run may change, and nothing else.** -/
theorem steps_after (process : LiveProcess) (session : Session) (call : Call) :
    Steps (session.failing? process call) (session.deposited? process call) session
      (session.after process call) := by
  cases call with
  | store artifact => exact steps_store artifact
  | find query =>
    obtain ⟨counters, hfound⟩ := session.find_eq query
    show Steps none none session (session.find query).2
    rw [hfound]
    exact steps_counted session counters
  | load id => exact steps_load id
  | lookup query => exact steps_lookup query
  | preloadEntries => exact .refl session
  | invalidate id =>
    exact steps_of_evolves (session.index.evolves_invalidate id)
      (session.index.size_stored_invalidate id) (fun h => h) _

end CodeVault.Session
