import CodeVault.Proofs.Index.Chains
import CodeVault.Proofs.Session.Entries

/-!
# Sessions over time

A session moves by the calls of processes, which may change from one call to the next, and by being
closed (`Session.Moves`).

* its index moves by adding without links, marking and invalidating only (`moves_index`);
* **what a session has given up it does not get back**: being enabled, being open, the container and
  the arena (`Onward`, `onward_of_moves`); a session that is closed has neither of the last two
  (`Shut`, `shut_of_moves`);
* **as long as a session is open it is that of a run from where it was** (`calls_of_moves`).
-/

namespace CodeVault

open EntryIndex

namespace Session

variable {before after session now : Session} {process : LiveProcess}

/-! ## 1. Moves, and what they do to the index -/

/-- The session after a call, whatever its outcome, or after it was closed. -/
inductive Move : Session → Session → Prop where
  | called (session : Session) (process : LiveProcess) (call : Call) : Move session
      (session.after process call)
  | closed (session : Session) (symbols : SymbolTable) (now : UInt64) (files : FileStore) :
      Move session (stateOf (close symbols now ⟨session, files⟩)).session

/-- The session after calls. -/
abbrev Moves : Session → Session → Prop := Relation.ReflTransGen Move

theorem index_reportAndFail {α : Type} (session : Session) (operation : Operation)
    (cause : CacheError) :
    (stateOf (reportAndFail operation cause session : EStateM.Result Stop Session α)).index =
      session.index := by
  obtain ⟨stop, failed, -, hreport⟩ := reportAndFail_eq (α := α) session operation cause
  rw [hreport]
  rfl

/-- A load leaves the index as it is, or marks an entry. -/
theorem moves_load (id : EntryId) :
    session.index.Moves (stateOf (load process id session)).index := by
  rcases load_cases process session id with
    ⟨stop, -, hload⟩ | ⟨-, -, artifact, -, -, -, -, -, -, hload⟩ | ⟨cause, -, hload⟩
  · rw [hload]
    exact .refl
  · rw [hload]
    exact .single (.markedLoaded _ _)
  · rw [hload, index_reportAndFail]
    exact .single (.markedLoadFail _ _)

theorem moves_lookup (query : Query) :
    session.index.Moves (stateOf (lookup process query session)).index := by
  rcases lookup_cases process session query with ⟨counters, hlookup, -⟩ | ⟨id, counters, hlookup, -⟩
  · rw [hlookup]
  · have hmoves : ({ session with counters } : Session).index.Moves
        (stateOf (load process id { session with counters })).index := moves_load id
    rw [hlookup]
    exact hmoves

/-- An artifact is stored without a link of its own. -/
theorem moves_store (artifact : Artifact) :
    session.index.Moves (stateOf (store process artifact session)).index := by
  rcases store_cases process session artifact with
    ⟨arena, after, layout, payload, counters, -, -, hstore⟩ | ⟨stop, hstore⟩ |
    ⟨stop, arena, grown, failed, counters, -, -, -, hstore⟩
  · rw [hstore]
    exact .single (.added session.index rfl)
  · rw [hstore]
    exact .refl
  · rw [hstore]
    exact .refl

theorem moves_after (call : Call) : session.index.Moves (session.after process call).index := by
  cases call with
  | store artifact => exact moves_store artifact
  | find query =>
    obtain ⟨counters, hfound⟩ := session.find_eq query
    show session.index.Moves (session.find query).2.index
    rw [hfound]
  | load id => exact moves_load id
  | lookup query => exact moves_lookup query
  | preloadEntries => exact .refl
  | invalidate id => exact .single (.invalidated session.index id)

/-- Closing a session leaves its index as it is. -/
theorem index_close (session : Session) (symbols : SymbolTable) (now : UInt64) (files : FileStore) :
    (stateOf (close symbols now ⟨session, files⟩)).session.index = session.index := by
  unfold close
  dsimp only
  split
  · rfl
  · split
    · rfl
    · rename_i cause _
      obtain ⟨failed, hreport⟩ := stateOf_report .finalizing cause
        { session with container := none, arena := none, state := .closed }
      split
      · rename_i hok
        rw [hok] at hreport
        cases hreport
        rfl
      · rename_i herror
        rw [herror] at hreport
        cases hreport
        rfl

/-- **A session moves its index only by adding without links, marking and invalidating.** -/
theorem moves_index (h : Moves before after) : before.index.Moves after.index := by
  induction h with
  | refl => exact .refl
  | tail _ hmove ih =>
    cases hmove with
    | called process call => exact ih.trans (moves_after call)
    | closed symbols now files =>
      rw [index_close]
      exact ih

/-! ## 2. What calls leave -/

/-- A load changes the index and the counters, and may disable the session. -/
theorem stateOf_load (process : LiveProcess) (session : Session) (id : EntryId) :
    ∃ index failed counters, (session.failed = true → failed = true) ∧
      stateOf (load process id session) = { session with index, failed, counters } := by
  rcases load_cases process session id with
    ⟨stop, -, hload⟩ | ⟨-, -, artifact, -, -, -, -, -, -, hload⟩ | ⟨cause, -, hload⟩
  · exact ⟨_, _, _, fun h => h, by rw [hload]; rfl⟩
  · exact ⟨_, _, _, fun h => h, by rw [hload]; rfl⟩
  · obtain ⟨stop, failed, hfailed, hreport⟩ := reportAndFail_eq (α := Artifact) { session with
      index := session.index.markLoadFail id
      counters := session.counters.recordLoadFailure } .loading cause
    exact ⟨_, failed, _, hfailed, by rw [hload, hreport]; rfl⟩

/-- **A call changes the arena if there is one, the index and the counters, and may disable the
    session.** -/
theorem after_eq (process : LiveProcess) (session : Session) (call : Call) :
    ∃ arena index failed counters, (session.arena = none → arena = none) ∧
      (session.failed = true → failed = true) ∧
      session.after process call = { session with arena, index, failed, counters } := by
  cases call with
  | store artifact =>
    rcases store_cases process session artifact with
      ⟨arena, after, layout, payload, counters, harena, -, hstore⟩ | ⟨stop, hstore⟩ |
      ⟨stop, arena, grown, failed, counters, harena, -, hfailed, hstore⟩
    · refine ⟨some after, _, session.failed, counters, ?_, fun h => h,
        by rw [Session.after, hstore]; rfl⟩
      intro hnone
      cases harena.symm.trans hnone
    · exact ⟨_, _, _, _, fun h => h, fun h => h, by rw [Session.after, hstore]; rfl⟩
    · refine ⟨some grown, session.index, failed, counters, ?_, hfailed,
        by rw [Session.after, hstore]; rfl⟩
      intro hnone
      cases harena.symm.trans hnone
  | find query =>
    obtain ⟨counters, hfound⟩ := session.find_eq query
    exact ⟨_, _, _, counters, fun h => h, fun h => h, hfound⟩
  | load id =>
    obtain ⟨index, failed, counters, hfailed, hload⟩ := stateOf_load process session id
    exact ⟨_, index, failed, counters, fun h => h, hfailed, hload⟩
  | lookup query =>
    rcases lookup_cases process session query with
      ⟨counters, hlookup, -⟩ | ⟨id, counted, hlookup, -⟩
    · exact ⟨_, _, _, counters, fun h => h, fun h => h, hlookup⟩
    · obtain ⟨index, failed, counters, hfailed, hload⟩ :=
        stateOf_load process { session with counters := counted } id
      exact ⟨_, index, failed, counters, fun h => h, hfailed, hlookup.trans hload⟩
  | preloadEntries => exact ⟨_, _, _, _, fun h => h, fun h => h, rfl⟩
  | invalidate id => exact ⟨_, _, _, _, fun h => h, fun h => h, rfl⟩

/-! ## 3. What closing leaves -/

/-- A session that is closed stays as it is, and nothing is written. -/
theorem close_of_closed (hclosed : session.state = .closed) (symbols : SymbolTable) (time : UInt64)
    (files : FileStore) : close symbols time ⟨session, files⟩ = .ok none ⟨session, files⟩ := by
  simp only [close, hclosed, if_true]

/-- A session that is disabled writes nothing when it is closed. -/
theorem close_of_failed (hfailed : session.failed = true) (hopen : session.state ≠ .closed)
    (symbols : SymbolTable) (time : UInt64) (files : FileStore) :
    close symbols time ⟨session, files⟩ =
      .ok none ⟨{ session with container := none, arena := none, state := .closed }, files⟩ := by
  have hleave : session.leave symbols time files = (.ok none, files) := by
    unfold leave
    split
    · rfl
    · rw [if_pos hfailed]
  simp only [close, hopen, if_false, hleave]

/-- What is left of a session that was closed: what it was, if it was closed already, or else a
    session without container and arena. -/
theorem session_close (session : Session) (symbols : SymbolTable) (time : UInt64)
    (files : FileStore) :
    (session.state = .closed ∧ (stateOf (close symbols time ⟨session, files⟩)).session = session) ∨
    ∃ failed, (session.failed = true → failed = true) ∧
      (stateOf (close symbols time ⟨session, files⟩)).session =
        { session with container := none, arena := none, state := .closed, failed } := by
  by_cases hclosed : session.state = .closed
  · exact .inl ⟨hclosed, by rw [close_of_closed hclosed]; rfl⟩
  refine .inr ?_
  by_cases hfailed : session.failed = true
  · exact ⟨session.failed, fun h => h, by rw [close_of_failed hfailed hclosed]; rfl⟩
  · obtain ⟨failed, hstate⟩ := stateOf_close symbols time files hclosed
    exact ⟨failed, fun h => absurd h hfailed, by rw [hstate]⟩

/-! ## 4. What does not come back -/

/-- What a session has given up it does not get back. -/
structure Onward (before after : Session) : Prop where
  config : after.config = before.config
  fingerprint : after.fingerprint = before.fingerprint
  failed : before.failed = true → after.failed = true
  closed : before.state = .closed → after.state = .closed
  container : after.container = none ∨ after.container = before.container
  arena : before.arena = none → after.arena = none

theorem Onward.refl (session : Session) : Onward session session :=
  ⟨rfl, rfl, fun h => h, fun h => h, .inr rfl, fun h => h⟩

theorem Onward.trans {first second third : Session} (h : Onward first second)
    (h' : Onward second third) :
    Onward first third := by
  refine ⟨h'.config.trans h.config, h'.fingerprint.trans h.fingerprint, h'.failed ∘ h.failed,
    h'.closed ∘ h.closed, ?_, h'.arena ∘ h.arena⟩
  rcases h'.container with hnone | hsame
  · exact .inl hnone
  · rw [hsame]
    exact h.container

theorem Move.onward (h : Move before after) : Onward before after := by
  cases h with
  | called process call =>
    obtain ⟨arena, index, failed, counters, harena, hfailed, hafter⟩ := after_eq process before call
    rw [hafter]
    exact ⟨rfl, rfl, hfailed, fun h => h, .inr rfl, harena⟩
  | closed symbols time files =>
    rcases session_close before symbols time files with ⟨-, hsame⟩ | ⟨failed, hfailed, hleft⟩
    · rw [hsame]
      exact .refl before
    · rw [hleft]
      exact ⟨rfl, rfl, hfailed, fun _ => rfl, .inl rfl, fun _ => rfl⟩

/-- **What a session has given up it does not get back**, whatever happens to it. -/
theorem onward_of_moves (h : Moves before after) : Onward before after := by
  induction h with
  | refl => exact .refl before
  | tail _ hmove ih => exact ih.trans hmove.onward

/-- What is loaded now was loaded when the session was started. -/
theorem Onward.of_container {container : Container} (h : Onward before after)
    (hcontainer : after.container = some container) : before.container = some container := by
  rcases h.container with hnone | hsame
  · cases hnone.symm.trans hcontainer
  · exact hsame.symm.trans hcontainer

/-- A session that is closed has neither a container nor an arena. -/
def Shut (session : Session) : Prop :=
  session.state = .closed → session.container = none ∧ session.arena = none

theorem shut_of_start {files : FileStore} {config : Config} {fingerprint : Fingerprint}
    {known symbols : SymbolTable}
    (h : Session.start files config fingerprint known = .ok (session, symbols)) :
    session.Shut := by
  intro hclosed
  rw [state_of_start h] at hclosed
  cases hcontainer : session.container <;> cases harena : session.arena <;>
    rw [hcontainer, harena] at hclosed <;> first | exact ⟨rfl, rfl⟩ | cases hclosed

theorem Move.shut (hmove : Move before after) (h : before.Shut) : after.Shut := by
  intro hclosed
  cases hmove with
  | called process call =>
    obtain ⟨arena, index, failed, counters, harena, -, hafter⟩ := after_eq process before call
    rw [hafter] at hclosed ⊢
    obtain ⟨hcontainer, hnone⟩ := h hclosed
    exact ⟨hcontainer, harena hnone⟩
  | closed symbols time files =>
    rcases session_close before symbols time files with ⟨hstate, hsame⟩ | ⟨failed, -, hleft⟩
    · rw [hsame]
      exact h hstate
    · rw [hleft]
      exact ⟨rfl, rfl⟩

/-- **A session that is closed has neither a container nor an arena.** -/
theorem shut_of_moves (hmoves : Moves before after) (h : before.Shut) : after.Shut := by
  induction hmoves with
  | refl => exact h
  | tail _ hmove ih => exact hmove.shut ih

/-- A session that was closed is closed. -/
theorem state_close (session : Session) (symbols : SymbolTable) (time : UInt64)
    (files : FileStore) :
    (stateOf (close symbols time ⟨session, files⟩)).session.state = .closed := by
  rcases session_close session symbols time files with ⟨hstate, hsame⟩ | ⟨failed, -, hleft⟩
  · rw [hsame, hstate]
  · rw [hleft]

/-! ## 5. Sessions that are open -/

/-- What calls make of a session does not depend on what happened before. -/
theorem session_run {history other : History} (h : history.session = other.session)
    (calls : List (LiveProcess × Call)) :
    (history.run calls).session = (other.run calls).session := by
  induction calls generalizing history other with
  | nil => exact h
  | cons call calls ih =>
    have hstep : (history.step call).session = (other.step call).session :=
      congrArg (after call.1 · call.2) h
    exact ih hstep

/-- The run that goes on after another one. -/
theorem history_append (session : Session) (earlier later : List (LiveProcess × Call)) :
    session.history (earlier ++ later) = (session.history earlier).run later :=
  History.run_append (History.start session) earlier later

/-- A run moves its session by its calls. -/
theorem moves_history (session : Session) (calls : List (LiveProcess × Call)) :
    session.Moves (session.history calls).session := by
  induction calls using List.reverseRecOn with
  | nil => exact .refl
  | append_singleton calls call ih =>
    rw [history_append]
    exact ih.tail (.called _ call.1 call.2)

/-- **As long as a session is open it is that of a run from where it was.** -/
theorem calls_of_moves (h : Moves before now) (hopen : now.state ≠ .closed) :
    ∃ calls, now = (before.history calls).session := by
  induction h with
  | refl => exact ⟨[], rfl⟩
  | tail _ hmove ih =>
    cases hmove with
    | called process call =>
      rw [(steps_after process _ call).state] at hopen
      obtain ⟨calls, rfl⟩ := ih hopen
      exact ⟨calls ++ [(process, call)], by rw [history_append]; rfl⟩
    | closed symbols time files => exact absurd (state_close _ symbols time files) hopen

end Session

end CodeVault
