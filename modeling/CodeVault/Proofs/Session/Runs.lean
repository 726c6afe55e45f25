import CodeVault.Proofs.Session.Open

/-!
# Runs of a session

* a `History` is a session with what happened in it since it was opened: what was stored, and whose
  load failed;
* `History.Faithful`: every entry that was loaded or stored is still what it was when it came about,
  with the same bytes, and is marked exactly when its load failed;
* **every run of a session is faithful** (`Faithful.step`, `Faithful.run`).
-/

namespace CodeVault

open Bytes Session

/-! ## 1. Histories -/

/-- An entry by its id, in a session in which it came about. -/
structure Origin where
  session : Session
  id : EntryId

/-- A session with what happened in it since it was opened. -/
structure History where
  opened : Session
  session : Session
  deposits : List Origin
  failures : List EntryId

namespace History

/-- The history of a session in which nothing has happened yet. -/
def start (session : Session) : History := ⟨session, session, [], []⟩

/-- The history after one more call, which a process makes as it is then. -/
def step (history : History) (call : LiveProcess × Call) : History :=
  let after := history.session.after call.1 call.2
  { history with
    session := after
    deposits := history.deposits ++
      (history.session.deposited? call.1 call.2).toList.map (⟨after, ·⟩)
    failures := history.failures ++ (history.session.failing? call.1 call.2).toList }

/-- The history after calls. -/
def run (history : History) (calls : List (LiveProcess × Call)) : History :=
  calls.foldl step history

/-- All entries of a history: those of the container that was loaded, then those that were
    stored. -/
def origins (history : History) : List Origin :=
  (List.range history.opened.index.loaded.size).map (⟨history.opened, .loaded ·⟩) ++
    history.deposits

/-- Whether an entry is to be dropped at the end: its load failed, or it is preload code that is not
    entrant any more. -/
def drops (history : History) (id : EntryId) : Bool :=
  history.failures.contains id ||
    (history.session.entry? id).any fun entry => entry.flags.notEntrant && entry.flags.forPreload

/-- The entries of a history that are not dropped. -/
def survivors (history : History) : List Origin :=
  history.origins.filter fun origin => !history.drops origin.id

/-! ## 2. What stays -/

/-- An entry is still what it was when it came about, and is marked exactly when its load failed. -/
def Keeps (history : History) (origin : Origin) : Prop :=
  ∃ entry now bytes, origin.session.entry? origin.id = some entry ∧
    history.session.entry? origin.id = some now ∧ entry.Became now ∧
    now.flags.loadFail = history.failures.contains origin.id ∧
    origin.session.payload? origin.id entry = some bytes ∧
    history.session.payload? origin.id now = some bytes

/-- A session is what its history says. -/
structure Faithful (history : History) : Prop where
  config : history.session.config = history.opened.config
  fingerprint : history.session.fingerprint = history.opened.fingerprint
  state : history.session.state = history.opened.state
  container : history.session.container = history.opened.container
  failed : history.opened.failed = true → history.session.failed = true
  arena : history.opened.arena.isSome = true → history.session.arena.isSome = true
  loaded : history.session.index.loaded.size = history.opened.index.loaded.size
  stored : history.deposits.map (·.id) = (List.range history.session.index.stored.size).map .stored
  keeps : ∀ origin ∈ history.origins, history.Keeps origin
  failures : ∀ id ∈ history.failures, ∃ i, id = .loaded i
  kinds : ∀ origin ∈ history.deposits, ∀ entry, origin.session.entry? origin.id = some entry →
    entry.kind ≠ .none

/-- A loaded entry of a session that was just started has not failed, and its bytes are there. -/
theorem loaded_of_opened {config : Config} {fingerprint : Fingerprint}
    {before symbols : SymbolTable} {session : Session}
    (h : Opened config fingerprint before session symbols) {i : Nat}
    (hi : i < session.index.loaded.size) :
    ∃ entry bytes, session.entry? (.loaded i) = some entry ∧ entry.flags.loadFail = false ∧
      session.payload? (.loaded i) entry = some bytes := by
  rcases h.source with ⟨-, hempty, -⟩ | ⟨container, strings, hcontainer, hindex, -⟩
  · rw [hempty] at hi
    exact absurd hi (Nat.not_lt_zero i)
  · obtain ⟨-, hentries⟩ := stored_of_loadIndex hindex
    have hget : session.index.loaded[i]? = some session.index.loaded[i] :=
      Array.getElem?_eq_getElem hi
    have hmem : session.index.loaded[i] ∈ session.index.loaded.toList :=
      Array.mem_toList_iff.2 (Array.getElem_mem hi)
    obtain ⟨hfail, -, bytes, hbytes⟩ := Container.holds_of_entries hentries _ hmem
    exact ⟨_, bytes, hget, hfail, payload?_loaded.2 ⟨container, hcontainer, hbytes⟩⟩

/-- **A session that was just started is faithful.** -/
theorem faithful_start {config : Config} {fingerprint : Fingerprint} {before symbols : SymbolTable}
    {session : Session} (h : Opened config fingerprint before session symbols) :
    (start session).Faithful := by
  refine ⟨rfl, rfl, rfl, rfl, fun h => h, fun h => h, rfl, ?_, fun origin horigin => ?_,
    (fun _ h => nomatch h), (fun _ h => nomatch h)⟩
  · show [] = (List.range session.index.stored.size).map EntryId.stored
    rw [h.stored]
    rfl
  · have hmem : origin ∈ (List.range session.index.loaded.size).map (Origin.mk session <|
        .loaded ·) := by
      simpa [origins, start] using horigin
    obtain ⟨i, hi, rfl⟩ := List.mem_map.1 hmem
    obtain ⟨entry, bytes, hentry, hfail, hbytes⟩ := loaded_of_opened h (List.mem_range.1 hi)
    exact ⟨entry, entry, bytes, hentry, hentry, .refl entry, hfail, hbytes, hbytes⟩

/-- What is kept is kept in one more step. -/
theorem Keeps.step {history : History} {origin : Origin} (h : history.Keeps origin)
    (call : LiveProcess × Call) : (history.step call).Keeps origin := by
  obtain ⟨entry, now, bytes, hentry, hnow, hbecame, hfail, hbytes, hread⟩ := h
  have hsteps := steps_after call.1 history.session call.2
  obtain ⟨next, hnext, hbecame', hfail'⟩ := hsteps.index.entries hnow
  refine ⟨entry, next, bytes, hentry, hnext, hbecame.trans hbecame', ?_, hbytes,
    hsteps.payload? hbecame' hread⟩
  rw [hfail', hfail]
  simp only [History.step, List.contains_append]
  cases history.session.failing? call.1 call.2 with
  | none => simp
  | some failing => simp [eq_comm]

/-- The entries after a step are those before, and the one that was stored in it. -/
theorem origins_step (history : History) (call : LiveProcess × Call) :
    (history.step call).origins = history.origins ++
      (history.session.deposited? call.1 call.2).toList.map
        (⟨history.session.after call.1 call.2, ·⟩) :=
  (List.append_assoc ..).symm

theorem mem_deposit {history : History} {call : LiveProcess × Call} {origin : Origin}
    (h : origin ∈ (history.session.deposited? call.1 call.2).toList.map
      (Origin.mk (history.session.after call.1 call.2))) :
    history.session.deposited? call.1 call.2 = some origin.id ∧
      origin.session = history.session.after call.1 call.2 := by
  obtain ⟨id, hid, rfl⟩ := List.mem_map.1 h
  exact ⟨Option.mem_toList.1 hid, rfl⟩

/-- The ids of what was stored are the numbers in order, one more if a step stores something. -/
theorem stored_step {history : History} (call : LiveProcess × Call)
    (h : history.deposits.map (·.id) = (List.range history.session.index.stored.size).map .stored) :
    (history.step call).deposits.map (·.id) =
      (List.range (history.step call).session.index.stored.size).map .stored := by
  have hsteps := steps_after call.1 history.session call.2
  have hdeposits : (history.step call).deposits.map (·.id) = history.deposits.map (·.id) ++
      (history.session.deposited? call.1 call.2).toList := by
    simp [History.step, Function.comp_def]
  have hsize : (history.step call).session.index.stored.size = _ := hsteps.stored
  rw [hdeposits, h, hsize]
  cases hdeposited : history.session.deposited? call.1 call.2 with
  | none => simp
  | some id =>
    obtain ⟨rfl, -⟩ := hsteps.deposit hdeposited
    simp [List.range_succ]

/-- What is stored in a step is kept, as only loaded entries fail. -/
theorem keeps_deposit {history : History} {call : LiveProcess × Call} {origin : Origin}
    (hfailures : ∀ id ∈ (history.step call).failures, ∃ i, id = .loaded i)
    (h : origin ∈ (history.session.deposited? call.1 call.2).toList.map
      (Origin.mk (history.session.after call.1 call.2))) : (history.step call).Keeps origin := by
  obtain ⟨hid, hsession⟩ := mem_deposit h
  obtain ⟨hplace, entry, bytes, hentry, hbytes, -, hfail⟩ :=
    (steps_after call.1 history.session call.2).deposit hid
  have hnot : (history.step call).failures.contains origin.id = false := by
    rw [List.contains_eq_mem, decide_eq_false_iff_not]
    intro hmem
    obtain ⟨i, hi⟩ := hfailures _ hmem
    rw [hplace] at hi
    cases hi
  rw [← hsession] at hentry hbytes
  have hsame : (history.step call).session = origin.session := hsession.symm
  refine ⟨entry, entry, bytes, hentry, ?_, .refl entry, hfail.trans hnot.symm, hbytes, ?_⟩
  · rw [hsame, hentry]
  · rw [hsame, hbytes]

/-- **One more call leaves a faithful history faithful.** -/
theorem Faithful.step {history : History} (h : history.Faithful) (call : LiveProcess × Call) :
    (history.step call).Faithful := by
  have hsteps := steps_after call.1 history.session call.2
  have hfailures : ∀ id ∈ (history.step call).failures, ∃ i, id = .loaded i := by
    intro id hid
    rcases List.mem_append.1 hid with hold | hnew
    · exact h.failures id hold
    · exact loaded_of_failing? (Option.mem_toList.1 hnew)
  refine ⟨hsteps.config.trans h.config, hsteps.fingerprint.trans h.fingerprint,
    hsteps.state.trans h.state, hsteps.container.trans h.container, hsteps.failed ∘ h.failed, ?_,
    hsteps.index.loaded.trans h.loaded, stored_step call h.stored, ?_, hfailures, ?_⟩
  · intro hopened
    obtain ⟨arena, harena⟩ := Option.isSome_iff_exists.1 (h.arena hopened)
    obtain ⟨grown, hgrown, -⟩ := hsteps.arena harena
    exact Option.isSome_iff_exists.2 ⟨grown, hgrown⟩
  · intro origin horigin
    rw [origins_step, List.mem_append] at horigin
    rcases horigin with hold | hnew
    · exact (h.keeps origin hold).step call
    · exact keeps_deposit hfailures hnew
  · intro origin horigin entry hentry
    rcases List.mem_append.1 horigin with hold | hnew
    · exact h.kinds origin hold entry hentry
    · obtain ⟨hid, hsession⟩ := mem_deposit hnew
      obtain ⟨-, found, bytes, hfound, -, hkind, -⟩ := hsteps.deposit hid
      rw [hsession, hfound] at hentry
      cases hentry
      exact hkind

/-! ## 3. Runs -/

/-- **Every run of a session is faithful.** -/
theorem Faithful.run {history : History} (h : history.Faithful)
    (calls : List (LiveProcess × Call)) :
    (history.run calls).Faithful := by
  induction calls generalizing history with
  | nil => exact h
  | cons call calls ih => exact ih (h.step call)

theorem Keeps.run {history : History} {origin : Origin} (h : history.Keeps origin)
    (calls : List (LiveProcess × Call)) : (history.run calls).Keeps origin := by
  induction calls generalizing history with
  | nil => exact h
  | cons call calls ih => exact ih (h.step call)

theorem opened_run (history : History) (calls : List (LiveProcess × Call)) :
    (history.run calls).opened = history.opened := by
  induction calls generalizing history with
  | nil => rfl
  | cons call calls ih => exact ih (history.step call)

theorem run_append (history : History) (earlier later : List (LiveProcess × Call)) :
    history.run (earlier ++ later) = (history.run earlier).run later :=
  List.foldl_append ..

/-- An entry that is there at one time is there later, and became what it is then. -/
theorem became_run {history : History} {id : EntryId} {entry : Entry}
    (h : history.session.entry? id = some entry) (calls : List (LiveProcess × Call)) :
    ∃ now, (history.run calls).session.entry? id = some now ∧ entry.Became now := by
  induction calls generalizing history entry with
  | nil => exact ⟨entry, h, .refl entry⟩
  | cons call calls ih =>
    obtain ⟨next, hnext, hbecame, -⟩ := (steps_after call.1 history.session call.2).index.entries h
    obtain ⟨now, hnow, hbecame'⟩ := @ih (history.step call) _ hnext
    exact ⟨now, hnow, hbecame.trans hbecame'⟩

/-- **What can be read of an entry at one time is what can be read of it later.** -/
theorem payload?_run {history : History} {id : EntryId} {entry : Entry} {bytes : Bytes}
    (h : history.session.entry? id = some entry)
    (hbytes : history.session.payload? id entry = some bytes) (calls : List (LiveProcess × Call)) :
    ∃ now, (history.run calls).session.entry? id = some now ∧ entry.Became now ∧
      (history.run calls).session.payload? id now = some bytes := by
  induction calls generalizing history entry with
  | nil => exact ⟨entry, h, .refl entry, hbytes⟩
  | cons call calls ih =>
    have hsteps := steps_after call.1 history.session call.2
    obtain ⟨next, hnext, hbecame, -⟩ := hsteps.index.entries h
    obtain ⟨now, hnow, hbecame', hread⟩ :=
      @ih (history.step call) _ hnext (hsteps.payload? hbecame hbytes)
    exact ⟨now, hnow, hbecame.trans hbecame', hread⟩

/-- **What was invalidated at one time is not entrant at any later one.** -/
theorem notEntrant_run {history : History} {id : EntryId} {entry : Entry}
    (h : history.session.entry? id = some entry) (process : LiveProcess)
    (calls : List (LiveProcess × Call)) :
    ∃ now, (history.run ((process, .invalidate id) :: calls)).session.entry? id = some now ∧
      entry.Became now ∧ now.flags.notEntrant = true := by
  obtain ⟨next, hnext, hbecame, -⟩ :=
    (steps_after process history.session (.invalidate id)).index.entries h
  have hout : next.flags.notEntrant = true := EntryIndex.notEntrant_invalidate hnext
  obtain ⟨now, hnow, hbecame'⟩ :=
    @became_run (history.step (process, .invalidate id)) id next hnext calls
  exact ⟨now, hnow, hbecame.trans hbecame', hbecame'.notEntrant hout⟩

/-- **The payload of an artifact that was stored is there from then on.** -/
theorem Faithful.payload?_stored {history : History} (h : history.Faithful) {process : LiveProcess}
    {artifact : Artifact} {id : EntryId} {last : Session}
    (hstore : store process artifact history.session = .ok id last)
    (calls : List (LiveProcess × Call)) :
    ∃ encoded, Context.Encodes ⟨process, artifact.compile.forPreload⟩ artifact encoded ∧
      ∃ now, ((history.step (process, .store artifact)).run calls).session.entry? id = some now ∧
        ((history.step (process, .store artifact)).run calls).session.payload? id now
          = some (artifact.payload encoded) := by
  have hafter : history.session.after process (.store artifact) = last := by
    simp only [Session.after, hstore, stateOf_ok]
  have horigin : (⟨last, id⟩ : Origin) ∈ (history.step (process, .store artifact)).origins := by
    rw [origins_step, hafter]
    simp [deposited?, hstore]
  obtain ⟨entry, now, bytes, hentry, hnow, -, -, hbytes, hread⟩ :=
    ((h.step _).keeps _ horigin).run calls
  obtain ⟨arena, grown, layout, payload, counters, -, hstored, rfl, rfl⟩ := store_ok hstore
  obtain ⟨found, hfound, hpayload, -⟩ := payload?_depositing hstored counters
  obtain ⟨encoded, hencodes, rfl⟩ := hstored.encodes
  cases hentry.symm.trans hfound
  cases hbytes.symm.trans hpayload
  exact ⟨encoded, hencodes, now, hnow, hread⟩

end History

end CodeVault
