import CodeVault.Proofs.Session.Moves

/-!
# Sessions that are disabled or closed

A session is disabled by a failure of the cache as a whole, and it is closed at its end. In both
cases it finds nothing, takes nothing and writes nothing (`Disabled`, `Ended`), and it stays so:

* a session that is disabled answers that it is, whatever its state is otherwise
  (`disabled_of_failed`);
* a session that is closed gets no entries any more (`entries_of_moves`);
* a run puts a container in place at one time at most (`length_paths_le`);
* **being disabled and being closed are for good** (`ended_for_good`).
-/

namespace CodeVault.Session

variable {before now session : Session} {files : FileStore}

/-! ## 1. Disabled sessions -/

/-- A session that is disabled: it finds, takes and loads nothing, and writes nothing at its end. -/
structure Disabled (session : Session) : Prop where
  failed : session.failed = true
  finds : ∀ query, session.find query = (none, session)
  looksUp : ∀ process query, lookup process query session = .ok none session
  preload : session.preloadEntries = []
  stores : ∀ process artifact, store process artifact session = .error (.error .disabled) session
  loads : ∀ process i, load process (.loaded i) session = .error (.error .disabled) session
  closes : ∀ symbols time files, ∃ after,
    close symbols time ⟨session, files⟩ = .ok none ⟨after, files⟩

/-- What finds nothing answers nothing. -/
theorem lookup_of_find {query : Query} (h : session.find query = (none, session))
    (process : LiveProcess) :
    lookup process query session = .ok none session := by
  simp only [lookup, h]

/-- **Whatever else is known of it, a session that failed is disabled.** -/
theorem disabled_of_failed (hfailed : session.failed = true) : session.Disabled := by
  have hfinds : ∀ query, session.find query = (none, session) := fun query => by
    simp only [find, hfailed, Bool.true_or, if_true]
  refine ⟨hfailed, hfinds, fun process query => lookup_of_find (hfinds query) process, ?_,
    ?_, ?_, ?_⟩
  · simp only [preloadEntries, hfailed, Bool.or_true, Bool.true_or, if_true]
  · exact fun process artifact => by simp only [store, hfailed, if_true]
  · exact fun process i => by simp only [load, hfailed, if_true]
  · intro symbols time files
    by_cases hclosed : session.state = .closed
    · exact ⟨_, close_of_closed hclosed symbols time files⟩
    · exact ⟨_, close_of_failed hfailed hclosed symbols time files⟩

/-! ## 2. Closed sessions -/

/-- A session that is closed: it finds nothing, refuses what it is asked for without a trace, and
    stays as it is when it is closed again. -/
structure Ended (session : Session) : Prop where
  closed : session.state = .closed
  finds : ∀ query, session.find query = (none, session)
  looksUp : ∀ process query, lookup process query session = .ok none session
  preload : session.preloadEntries = []
  stores : ∀ process artifact, ∃ cause,
    store process artifact session = .error (.error cause) session
  loads : ∀ process id, ∃ cause, load process id session = .error (.error cause) session
  closes : ∀ symbols time files, close symbols time ⟨session, files⟩ = .ok none ⟨session, files⟩

/-- **A session without container and arena that is closed has ended.** -/
theorem ended_of_closed (hclosed : session.state = .closed) (hshut : session.Shut) :
    session.Ended := by
  obtain ⟨hcontainer, harena⟩ := hshut hclosed
  have hfinds : ∀ query, session.find query = (none, session) := fun query => by
    simp only [find, hcontainer, Option.isNone_none, Bool.or_true, if_true]
  refine ⟨hclosed, hfinds, fun process query => lookup_of_find (hfinds query) process, ?_, ?_, ?_,
    close_of_closed hclosed⟩
  · simp only [preloadEntries, hcontainer, Option.isNone_none, Bool.or_true, if_true]
  · intro process artifact
    by_cases hfailed : session.failed = true
    · exact ⟨.disabled, by simp only [store, hfailed, if_true]⟩
    · exact ⟨.notOpen .write, by simp only [store, hfailed, harena, Bool.false_eq_true, if_false]⟩
  · intro process id
    cases id with
    | stored i => exact ⟨.notOpen .loadingStored, rfl⟩
    | loaded i =>
      by_cases hfailed : session.failed = true
      · exact ⟨.disabled, by simp only [load, hfailed, if_true]⟩
      · exact ⟨.notOpen .read, by simp only [load, hfailed, hcontainer, Bool.false_eq_true,
          if_false]⟩

/-- Nothing is stored without an arena. -/
theorem deposited?_of_arena (harena : session.arena = none) (process : LiveProcess) (call : Call) :
    session.deposited? process call = none := by
  cases hdeposited : session.deposited? process call with
  | none => rfl
  | some id =>
    obtain ⟨artifact, arena, after, layout, payload, counters, rfl, -⟩ :=
      stored_of_deposited? hdeposited
    obtain ⟨other, -, -, -, -, hother, -⟩ := store_ok (store_of_deposited? hdeposited)
    cases harena.symm.trans hother

/-- A session without an arena has the same entries after a move. -/
theorem Move.entries (hmove : Move before now) (harena : before.arena = none) (id : EntryId) :
    (now.entry? id).isSome = (before.entry? id).isSome := by
  cases hmove with
  | called process call =>
    have hsteps := steps_after process before call
    rw [deposited?_of_arena harena] at hsteps
    rw [Bool.eq_iff_iff, Option.isSome_iff_exists, Option.isSome_iff_exists]
    constructor
    · rintro ⟨entry, hentry⟩
      rcases hsteps.entry?_cases hentry with ⟨first, hfirst, -⟩ | hnone
      · exact ⟨first, hfirst⟩
      · cases hnone
    · rintro ⟨entry, hentry⟩
      obtain ⟨next, hnext, -⟩ := hsteps.index.entries hentry
      exact ⟨next, hnext⟩
  | closed symbols time files =>
    unfold entry?
    rw [index_close]

/-- **A session without an arena gets no entries any more.** -/
theorem entries_of_moves (hmoves : Moves before now) (harena : before.arena = none) (id : EntryId) :
    (now.entry? id).isSome = (before.entry? id).isSome := by
  induction hmoves with
  | refl => rfl
  | tail hmoves hmove ih => rw [hmove.entries ((onward_of_moves hmoves).arena harena), ih]

/-! ## 3. What a run writes -/

/-- What happens to a session and to the files: a call, its end, or what others do to the files. -/
inductive Act where
  | call (process : LiveProcess) (call : Call)
  | close (symbols : SymbolTable) (time : UInt64)
  | files (files : FileStore)

namespace Closing

/-- The session and the files after an act, whatever its outcome. -/
def after (closing : Closing) : Act → Closing
  | .call process call => { closing with session := closing.session.after process call }
  | .close symbols time => stateOf (Session.close symbols time closing)
  | .files files => { closing with files }

/-- The path that an act answers: that of the container which it has put in place. -/
def path? (closing : Closing) : Act → Option String
  | .close symbols time =>
    match Session.close symbols time closing with
    | .ok path _ => path
    | .error _ _ => none
  | _ => none

/-- The paths that the acts of a run answer. -/
def paths : Closing → List Act → List String
  | _, [] => []
  | closing, act :: acts => (closing.path? act).toList ++ (closing.after act).paths acts

variable {closing : Closing}

/-- An act leaves a session closed that was closed, and answers no path. -/
theorem path?_of_closed (h : closing.session.state = .closed) (act : Act) :
    closing.path? act = none ∧ (closing.after act).session.state = .closed := by
  cases act with
  | call process call => exact ⟨rfl, ((steps_after process closing.session call).state).trans h⟩
  | close symbols time =>
    have hclose := close_of_closed h symbols time closing.files
    refine ⟨by simp only [path?, hclose], ?_⟩
    rw [after, hclose, stateOf_ok]
    exact h
  | files files => exact ⟨rfl, h⟩

/-- An act that answers a path has closed the session. -/
theorem closed_of_path? {act : Act} {path : String} (h : closing.path? act = some path) :
    (closing.after act).session.state = .closed := by
  cases act with
  | call process call => cases h
  | close symbols time => exact state_close closing.session symbols time closing.files
  | files files => cases h

theorem paths_of_closed (h : closing.session.state = .closed) (acts : List Act) :
    closing.paths acts = [] := by
  induction acts generalizing closing with
  | nil => rfl
  | cons act acts ih =>
    obtain ⟨hnone, hclosed⟩ := path?_of_closed h act
    rw [paths, hnone, ih hclosed]
    rfl

/-- **At most one act of a run answers a path.** -/
theorem length_paths_le (closing : Closing) (acts : List Act) :
    (closing.paths acts).length ≤ 1 := by
  induction acts generalizing closing with
  | nil => exact Nat.zero_le 1
  | cons act acts ih =>
    rw [paths]
    cases hpath : closing.path? act with
    | none => exact ih (closing.after act)
    | some path =>
      rw [paths_of_closed (closed_of_path? hpath)]
      exact Nat.le_refl 1

end Closing

/-! ## 4. For good -/

/-- **Being disabled and being closed are for good.** Whatever happens to a session after it was
    started: once it is disabled it stays so, finds nothing, refuses to store and to load because it
    is disabled, and writes nothing when it is closed; once closing it has ended, with whatever
    outcome, it stays closed, finds nothing, stores and loads nothing, gets no entry any more, and
    writes nothing when it is closed again. So a run answers at most once that it has put a
    container in place. -/
theorem ended_for_good {config : Config} {fingerprint : Fingerprint} {known symbols : SymbolTable}
    {opened : Session} (hstart : Session.start files config fingerprint known =
      .ok (opened, symbols)) :
    (∀ before now, opened.Moves before → before.failed = true → before.Moves now → now.Disabled) ∧
    (∀ before table time left now, opened.Moves before →
      (stateOf (close table time ⟨before, left⟩)).session.Moves now →
        now.Ended ∧ ∀ id, (now.entry? id).isSome = (before.entry? id).isSome) ∧
    ∀ left acts, (Closing.paths ⟨opened, left⟩ acts).length ≤ 1 := by
  refine ⟨fun before now _ hfailed hnow =>
      disabled_of_failed ((onward_of_moves hnow).failed hfailed), ?_,
    fun left acts => Closing.length_paths_le _ acts⟩
  intro before table time left now hbefore hnow
  have hclosed := state_close before table time left
  have hmove : Move before (stateOf (close table time ⟨before, left⟩)).session :=
    .closed before table time left
  have hshut := hmove.shut (shut_of_moves hbefore (shut_of_start hstart))
  refine ⟨ended_of_closed ((onward_of_moves hnow).closed hclosed) (shut_of_moves hnow hshut),
    fun id => ?_⟩
  rw [entries_of_moves hnow (hshut hclosed).2]
  unfold entry?
  rw [index_close]

/-! An example: one session finds a file that is no container; another one updates a container, and
is closed. -/

/-- A session that was started on a file that is no container. -/
def refused : Session := { unopened updating plain with failed := true }

theorem start_refused : Session.start (fileAtApp #[1]) updating plain idle =
    .ok (refused, idle) := by
  have hload : loadContainer (fileAtApp #[1]) "app" plain idle = .error (.sizeMismatch 96 1) := by
    have hbytes : Container.ofBytes #[1] = .error (.sizeMismatch 96 1) := by decide
    simp only [loadContainer, map_fileAtApp, hbytes]
    rfl
  exact start_of_error rfl rfl hload rfl

theorem ended_for_good_updated :
    (refused.after Context.internedOnce (.invalidate (.loaded 0))).Disabled ∧
      ∃ closing, close idle 0 ⟨updated, fileAtApp preloadImage⟩ = .ok (some "app") closing ∧
        (closing.session.after Context.internedOnce (.store Context.selfCallingStub)).Ended ∧
        (Closing.paths ⟨updated, fileAtApp preloadImage⟩ [.close idle 0, .close idle 1]).length ≤
          1 := by
  obtain ⟨hdisabled, -, -⟩ := ended_for_good start_refused
  obtain ⟨-, hended, honce⟩ := ended_for_good start_updating
  have hfinal : updated.finalBytes? idle.strings.texts 0 ≠ none := by decide +kernel
  obtain ⟨image, himage⟩ := Option.ne_none_iff_exists'.1 hfinal
  have hopen : updated.state ≠ .closed := by decide
  have hclose := close_at_app preloadImage hopen rfl himage
  have hend := (hended updated idle 0 (fileAtApp preloadImage) _ .refl
    (.single (.called _ Context.internedOnce (.store Context.selfCallingStub)))).1
  rw [hclose, stateOf_ok] at hend
  exact ⟨hdisabled refused _ .refl
    rfl (.single (.called refused Context.internedOnce (.invalidate (.loaded 0)))),
    _, hclose, hend, honce _ _⟩

end CodeVault.Session
