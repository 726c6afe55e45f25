import CodeVault.Proofs.Session.Moves
import CodeVault.Proofs.Session.Lookup

/-!
# Entries that failed to load

An entry whose artifact could not be read is marked, and nothing takes the mark away again in the
run.

* the mark stays whatever is done to an index (`EntryIndex.failed_of_moves`);
* an entry with the mark is given up: it is not found, and loading it is refused without a look at
  the bytes of the container (`GivenUp`, `givenUp_of_failed`);
* a session that is open after the failure is that of a run which has it among its failures
  (`failures_of_moves`);
* **a load that fails is the last one of its entry** (`failed_load_is_final`).
-/

namespace CodeVault

/-! ## 1. In an index -/

namespace EntryIndex

variable {before after : EntryIndex} {id : EntryId}

/-- An entry is there, and is marked as one that failed to load. -/
def Failed (index : EntryIndex) (id : EntryId) : Prop :=
  ∃ entry, index.get? id = some entry ∧ entry.flags.loadFail = true

theorem Evolves.failed {failing : Option EntryId} (h : Evolves failing before after)
    (hfailed : before.Failed id) :
    after.Failed id := by
  obtain ⟨entry, hentry, hmarked⟩ := hfailed
  obtain ⟨now, hnow, -, hfail⟩ := h.entries hentry
  exact ⟨now, hnow, by rw [hfail, hmarked, Bool.true_or]⟩

/-- **What failed to load stays marked**, whatever is added, marked or invalidated. -/
theorem failed_of_moves (h : Moves before after) (hfailed : before.Failed id) :
    after.Failed id := by
  induction h with
  | refl => exact hfailed
  | tail _ hmove ih =>
    obtain ⟨failing, hevolves⟩ := hmove.evolves
    exact hevolves.failed ih

end EntryIndex

/-! ## 2. In a session -/

namespace Session

variable {before now session : Session} {process : LiveProcess} {call : Call} {id : EntryId}

/-- The session with other bytes in the place of those of its container. -/
def withBytes (session : Session) (bytes : Bytes) : Session :=
  { session with container := session.container.map ({ · with bytes }) }

/-- An entry is given up: it is marked, it is not found, and loading it is refused, by whatever
    process and whatever the bytes of the container are, and leaves the session as it is. -/
structure GivenUp (session : Session) (id : EntryId) : Prop where
  marked : session.index.Failed id
  finds : ∀ query, (session.find query).1 ≠ some id
  loads : ∃ cause, (cause = .disabled ∨ cause = .notOpen .read ∨
      ∃ entry, session.entry? id = some entry ∧ cause = .previouslyFailed entry.id) ∧
    ∀ process, load process id session = .error (.error cause) session ∧
      ∀ bytes, load process id (session.withBytes bytes) =
      .error (.error cause) (session.withBytes bytes)

/-- **A loaded entry that is marked is given up.** -/
theorem givenUp_of_failed {i : Nat} (h : session.index.Failed (.loaded i)) :
    session.GivenUp (.loaded i) := by
  obtain ⟨entry, hentry, hmarked⟩ := h
  refine ⟨⟨entry, hentry, hmarked⟩, fun query hfound => ?_, ?_⟩
  · rcases hfind : session.find query with ⟨hit, found⟩
    rw [hfind] at hfound
    obtain rfl : hit = some (.loaded i) := hfound
    obtain ⟨place, other, counters, hplace, hother, hanswers, -⟩ := find_some hfind
    cases hentry.symm.trans hother
    simp only [Entry.answers, hmarked, Bool.not_true, Bool.and_false, Bool.false_and] at hanswers
    cases hanswers
  · by_cases hfailed : session.failed = true
    · refine ⟨.disabled, .inl rfl, fun process => ⟨?_, fun bytes => ?_⟩⟩
      · simp only [load, hfailed, if_true]
      · simp only [load, withBytes, hfailed, if_true]
    have henabled : session.failed = false := by simpa using hfailed
    cases hcontainer : session.container with
    | none =>
      refine ⟨.notOpen .read, .inr (.inl rfl), fun process => ⟨?_, fun bytes => ?_⟩⟩
      · simp only [load, henabled, hcontainer, Bool.false_eq_true, if_false]
      · simp only [load, withBytes, henabled, hcontainer, Option.map_none,
          Bool.false_eq_true, if_false]
    | some container =>
      refine ⟨.previouslyFailed entry.id, .inr (.inr ⟨entry, hentry, rfl⟩),
        fun process => ⟨?_, fun bytes => ?_⟩⟩
      · simp only [load, henabled, hcontainer, hentry, hmarked, Bool.false_eq_true,
          if_false, if_true]
      · simp only [load, withBytes, henabled, hcontainer, Option.map_some, hentry, hmarked,
          Bool.false_eq_true, if_false, if_true]

/-- A load that comes to read is that of an entry. -/
theorem entry?_of_cannotRead (h : session.cannotRead process id = true) :
    (session.entry? id).isSome := by
  unfold cannotRead at h
  split at h
  · rename_i hentry
    unfold entry?
    rw [hentry]
    rfl
  · cases h

/-- What fails to load in a call is an entry. -/
theorem entry?_of_failing? (h : session.failing? process call = some id) :
    (session.entry? id).isSome := by
  cases call with
  | load other =>
    have hload : (if session.cannotRead process other then some other else none) = some id := h
    obtain ⟨hread, rfl⟩ : session.cannotRead process other = true ∧ other = id := by
      simpa using hload
    exact entry?_of_cannotRead hread
  | lookup query =>
    rcases lookup_cases process session query with
      ⟨counters, -, hquiet⟩ | ⟨other, counters, -, hfailing⟩
    · cases hquiet.symm.trans h
    · rw [hfailing] at h
      obtain ⟨hread, rfl⟩ : cannotRead process { session with counters } other = true ∧
        other = id := by
        simpa using h
      exact entry?_of_cannotRead hread
  | store artifact => cases h
  | find query => cases h
  | preloadEntries => cases h
  | invalidate other => cases h

/-- **A load that fails marks its entry**, whatever comes of the report. -/
theorem failed_of_failing? (h : session.failing? process call = some id) :
    (session.after process call).index.Failed id := by
  obtain ⟨entry, hentry⟩ := Option.isSome_iff_exists.1 (entry?_of_failing? h)
  obtain ⟨now, hnow, -, hfail⟩ := (steps_after process session call).index.entries hentry
  exact ⟨now, hnow, by rw [hfail, h, decide_eq_true rfl, Bool.or_true]⟩

end Session

/-! ## 3. In what a run leaves -/

namespace History

theorem failures_run (history : History) (calls : List (LiveProcess × Session.Call)) {id : EntryId}
    (h : id ∈ history.failures) : id ∈ (history.run calls).failures := by
  induction calls generalizing history with
  | nil => exact h
  | cons call calls ih => exact ih (history.step call) (List.mem_append_left _ h)

end History

namespace Session

variable {files : FileStore} {config : Config} {fingerprint : Fingerprint}
  {known symbols : SymbolTable}
  {opened before now : Session} {process : LiveProcess} {call : Call} {id : EntryId}

/-- A session that is open after a load that failed is that of a run with this failure. -/
theorem failures_of_moves (hbefore : opened.Moves before)
    (hfailing : before.failing? process call = some id)
    (hnow : (before.after process call).Moves now) (hopen : now.state ≠ .closed) :
    ∃ calls, now = (opened.history calls).session ∧ id ∈ (opened.history calls).failures := by
  have hafter : (before.after process call).state ≠ .closed := fun hclosed =>
    hopen ((onward_of_moves hnow).closed hclosed)
  have hfirst : before.state ≠ .closed := by rwa [(steps_after process before call).state] at hafter
  obtain ⟨earlier, rfl⟩ := calls_of_moves hbefore hfirst
  obtain ⟨later, rfl⟩ := calls_of_moves hnow hopen
  refine ⟨earlier ++ (process, call) :: later, ?_, ?_⟩
  · rw [history_append]
    have hsame : (History.start ((opened.history earlier).session.after process call)).session
        = ((opened.history earlier).step (process, call)).session := rfl
    exact session_run hsame later
  · rw [history_append]
    refine History.failures_run _ later (List.mem_append_right _ ?_)
    exact Option.mem_toList.2 hfailing

/-- **A load that fails is the last one of its entry.** Once a load has come to read the artifact of
    an entry and found an error there, by itself or for a look-up, and whether the policy answered
    the error or stopped the process, the entry is given up whatever happens later: it is not found,
    and loading it is refused for one of three causes, without a look at its bytes. Nothing that is
    done to the index takes the mark away; and of the container that the session leaves, if it
    leaves one, the entries carry the survivors of the run, and the entry is none of these. -/
theorem failed_load_is_final
    (hstart : Session.start files config fingerprint known = .ok (opened, symbols))
    (hbefore : opened.Moves before) (hfailing : before.failing? process call = some id)
    (hnow : (before.after process call).Moves now) :
    now.GivenUp id ∧
    (∀ index, (before.after process call).index.Moves index → index.Failed id) ∧
    ∀ table time left path closing, close table time ⟨now, left⟩ = .ok (some path) closing →
      ∃ calls image header entries, now = (opened.history calls).session ∧
        closing.files.map path = .ok image ∧
        (∀ container, Container.ofBytes image = .ok container → container = ⟨image, header⟩) ∧
        Container.entries ⟨image, header⟩ = .ok entries ∧
        List.Forall₂ (Origin.CarriedBy ⟨image, header⟩) (opened.history calls).survivors entries ∧
        ∀ origin ∈ (opened.history calls).survivors, origin.id ≠ id := by
  obtain ⟨i, rfl⟩ := loaded_of_failing? hfailing
  have hmarked := failed_of_failing? hfailing
  refine ⟨givenUp_of_failed (EntryIndex.failed_of_moves (moves_index hnow) hmarked),
    fun index hindex => EntryIndex.failed_of_moves hindex hmarked, ?_⟩
  intro table time left path closing hclose
  obtain ⟨calls, rfl, hfailure⟩ := failures_of_moves hbefore hfailing hnow (open_of_close hclose)
  have hfaithful := (opened_of_start hstart).faithful calls
  obtain ⟨arena, merged, image, header, entries, hwritten⟩ := written_of_close hclose
  refine ⟨calls, image, header, entries, rfl, hwritten.file, ?_,
    hwritten.laid.entries_ok hwritten.holds, hfaithful.carries_written hwritten, ?_⟩
  · exact fun container haccepted => hwritten.laid.eq_of_ofBytes haccepted
  · intro origin horigin hsame
    rw [← hsame] at hfailure
    exact (History.of_mem_survivors horigin).1 hfailure

/-! An example: the method in a container is empty. Its load stops the process, and a stub is stored
then. -/

/-- The session in which the method has failed to load, with a stub. -/
def unreadable : Session :=
  (updated.after Context.internedOnce (.load (.loaded 0))).after Context.internedOnce
    (.store Context.selfCallingStub)

theorem close_unreadable :
    ∃ closing, close idle 0 ⟨unreadable, fileAtApp preloadImage⟩ = .ok (some "app") closing := by
  have hfinal : unreadable.finalBytes? idle.strings.texts 0 ≠ none := by decide +kernel
  obtain ⟨image, himage⟩ := Option.ne_none_iff_exists'.1 hfinal
  have hload := steps_after Context.internedOnce updated (.load (.loaded 0))
  have hstore :=
    steps_after Context.internedOnce (updated.after Context.internedOnce (.load (.loaded 0)))
      (.store Context.selfCallingStub)
  have hopen : unreadable.state ≠ .closed := by
    rw [unreadable, hstore.state, hload.state]
    decide
  have hpath : unreadable.config.storePath = some "app" := by
    rw [unreadable, hstore.config, hload.config]
    rfl
  exact ⟨_, close_at_app preloadImage hopen hpath himage⟩

theorem failed_load_is_final_unreadable :
    unreadable.GivenUp (.loaded 0) ∧
      ∃ closing image header entries,
        close idle 0 ⟨unreadable, fileAtApp preloadImage⟩ = .ok (some "app") closing ∧
        closing.files.map "app" = .ok image ∧ Container.entries ⟨image, header⟩ = .ok entries := by
  have hfailing : updated.failing? Context.internedOnce (.load (.loaded 0)) = some (.loaded 0) := by
    decide +kernel
  obtain ⟨hgivenUp, -, hcloses⟩ := failed_load_is_final start_updating .refl hfailing
    (.single (.called _ Context.internedOnce (.store Context.selfCallingStub)))
  obtain ⟨closing, hclose⟩ := close_unreadable
  obtain ⟨calls, image, header, entries, -, hfile, -, hentries, -⟩ := hcloses _ _ _ _ _ hclose
  exact ⟨hgivenUp, closing, image, header, entries, hclose, hfile, hentries⟩

end Session

end CodeVault
