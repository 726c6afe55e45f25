import CodeVault.Proofs.Session.Moves
import CodeVault.Proofs.Session.Names

/-!
# Chains of versions in sessions

* **invalidating a method takes the latest version with barriers along**, in an index by itself and
  in a session (`invalidate_takes_latest`);
* an older version that could be entered as well is not linked, and stays; so does every version,
  when the method itself could not be entered any more (`invalidate_spares`).
-/

namespace CodeVault

open EntryIndex

/-! ## 1. Starting -/

namespace Session

variable {session : Session}

/-- A session is started without links. -/
theorem ending_of_start {files : FileStore} {config : Config} {fingerprint : Fingerprint}
    {known symbols : SymbolTable}
    (h : Session.start files config fingerprint known = .ok (session, symbols)) :
    session.index.Ending := by
  intro id entry hentry _
  obtain ⟨hstored, hsource⟩ := source_of_start h
  cases id with
  | stored i =>
    have hget : session.index.stored[i]? = some entry := hentry
    rw [hstored] at hget
    cases hget
  | loaded i =>
    have hget : session.index.loaded[i]? = some entry := hentry
    rcases hsource with ⟨-, hempty⟩ | ⟨path, image, container, -, -, -, hindex⟩
    · rw [hempty] at hget
      cases hget
    · obtain ⟨-, hentries⟩ := stored_of_loadIndex hindex
      have hmem : entry ∈ session.index.loaded.toList :=
        Array.mem_toList_iff.2 (Array.mem_of_getElem? hget)
      exact (Container.holds_of_entries hentries entry hmem).2.1

end Session

/-! ## 2. Invalidating a method -/

/-- **Invalidating a method takes the latest version with barriers along** that could be entered
    when the method was added: in every index in which entries are added without links, marked and
    invalidated in any order, if the method itself could be entered when it was added; and in every
    session. Every other entry stays as it is. -/
theorem invalidate_takes_latest :
    (∀ (start before added now : EntryIndex) (entry : Entry) (id : EntryId) (arena grown : Arena),
      (∀ loaded ∈ start.loaded, loaded.next = none) → start.stored = #[] → start.Moves before →
      entry.kind = .code → entry.flags.initBarriers = false → entry.next = none →
      entry.isEntrant = true →
      before.addEntry entry arena = .ok (id, added) grown → added.Moves now →
      Cascade before now entry.id id) ∧
    ∀ (files : FileStore) (config : Config) (fingerprint : Fingerprint) (known
      symbols : SymbolTable)
      (opened before stored now : Session) (process : LiveProcess) (artifact : Artifact)
        (id : EntryId),
      Session.start files config fingerprint known = .ok (opened, symbols) → opened.Moves before →
      artifact.kind = .code → artifact.compile.initBarriers = false →
      Session.store process artifact before = .ok id stored → stored.Moves now →
      Cascade before.index now.index artifact.id id := by
  refine ⟨?_, ?_⟩
  · intro start before added now entry id arena grown hloaded hstored hbefore hkind hregular hnext
      hentrant hadd hnow
    have hending : start.Ending := by
      intro id found hfound _
      cases id with
      | loaded i => exact hloaded found (Array.mem_of_getElem? hfound)
      | stored i =>
        have hget : start.stored[i]? = some found := hfound
        rw [hstored] at hget
        cases hget
    obtain ⟨rfl, rfl, -⟩ := addEntry_ok hadd
    exact cascade_of_moves hending hbefore hkind hregular hnext hentrant hnow
  · intro files config fingerprint known symbols opened before stored now process artifact id
      hstart hbefore hkind hregular hstore hnow
    obtain ⟨arena, after, layout, payload, counters, -, -, rfl, rfl⟩ := Session.store_ok hstore
    have hcode : (Session.entryOf before.config.offline artifact layout).kind = .code := hkind
    exact cascade_of_moves (Session.ending_of_start hstart) (Session.moves_index hbefore) hcode
      hregular rfl rfl (Session.moves_index hnow)

/-! An example: a method is added twice with barriers, and then without. -/

/-- A version of a method. -/
def version : Entry :=
  { kind := .code, id := 7, offset := 0, size := 0, nameOffset := 0, nameSize := 0, codeOffset := 0,
    codeSize := 0, level := 4, compileId := 0, decompile := 0, inlinedBytecodes := 0,
    flags := .none, next := none }

/-- A version of it with barriers. -/
def barred : Entry := { version with flags := { EntryFlags.none with initBarriers := true } }

/-- The index with two versions with barriers. -/
def barredTwice : EntryIndex := ⟨#[], #[], #[], #[barred, barred]⟩

/-- The index when the version without barriers was added. -/
def chained : EntryIndex :=
  ⟨#[], #[], #[], #[barred, barred, { version with next := some (.stored 1) }]⟩

/-- A version that could not be entered when it was added. -/
def departed : Entry := { version with flags := { EntryFlags.none with notEntrant := true } }

/-- The index with one version with barriers. -/
def barredOnce : EntryIndex := ⟨#[], #[], #[], #[barred]⟩

/-- The index when the version that could not be entered was added. -/
def departedBehind : EntryIndex :=
  ⟨#[], #[], #[], #[barred, { departed with next := some (.stored 0) }]⟩

/-- An arena that entries were added to. -/
def carved (count : Nat) : Arena := ⟨#[], 1024, Entry.encodedSize * count, false⟩

/-- A method with barriers, as a process stores it. -/
def barredBeo : Artifact :=
  { Machine.beo with compile := { Machine.beo.compile with initBarriers := true } }

theorem store_beo :
    Session.store Machine.idleProcess Machine.beo
      (writing.after Machine.idleProcess (.store barredBeo)) =
      .ok (.stored 1) ((writing.after Machine.idleProcess (.store barredBeo)).after
        Machine.idleProcess (.store Machine.beo)) :=
  Session.store_of_deposited? (by decide +kernel)

theorem moves_barredOnce : EntryIndex.empty.Moves barredOnce := by
  have hnext : barred.next = none := rfl
  have hfirst : EntryIndex.empty.Move barredOnce := .added _ hnext
  exact .single hfirst

theorem moves_barredTwice : EntryIndex.empty.Moves barredTwice := by
  have hnext : barred.next = none := rfl
  have hsecond : EntryIndex.Move barredOnce barredTwice := .added _ hnext
  exact moves_barredOnce.tail hsecond

theorem add_version :
    barredTwice.addEntry version (carved 2) = .ok (.stored 2, chained) (carved 3) := by
  rfl

theorem invalidate_takes_latest_barred :
    (chained.invalidate (.stored 2)).2.Out (.stored 1) ∧
      ∃ stored, Session.store Machine.idleProcess Machine.beo
          (writing.after Machine.idleProcess (.store barredBeo)) = .ok (.stored 1) stored ∧
        (stored.index.invalidate (.stored 1)).2.Out (.stored 0) := by
  have hindex := invalidate_takes_latest.1 .empty barredTwice chained chained version (.stored 2)
    (carved 2)
    (carved 3) (fun _ h => absurd h (Array.not_mem_empty _)) rfl moves_barredTwice
    rfl rfl rfl rfl add_version .refl
  have hsession := invalidate_takes_latest.2 (fileAtApp #[]) storing plain idle idle writing _ _ _
    Machine.idleProcess Machine.beo (.stored 1) rfl
    (.single (.called writing Machine.idleProcess (.store barredBeo))) rfl rfl store_beo .refl
  exact ⟨hindex.latest (.stored 1) (latest_iff.2 (by decide)),
    _, store_beo, hsession.latest (.stored 0) (latest_iff.2 (by decide +kernel))⟩

/-- **An older version with barriers could be entered when the method was added, and still can**
    when the method has been invalidated; and so can the latest one, if the method was out already
    when it was added. -/
theorem invalidate_spares :
    (EntryIndex.empty.Moves barredTwice ∧
      barredTwice.addEntry version (carved 2) = .ok (.stored 2, chained) (carved 3) ∧
      barredTwice.Version 7 (.stored 0) ∧
      ¬ (chained.invalidate (.stored 2)).2.Out (.stored 0)) ∧
    EntryIndex.empty.Moves barredOnce ∧
      barredOnce.addEntry departed (carved 1) = .ok (.stored 1, departedBehind) (carved 2) ∧
      barredOnce.Version 7 (.stored 0) ∧
      ¬ (departedBehind.invalidate (.stored 1)).2.Out (.stored 0) := by
  refine ⟨⟨moves_barredTwice, add_version, ⟨barred, rfl, rfl⟩, ?_⟩, moves_barredOnce, rfl,
    ⟨barred, rfl, rfl⟩, ?_⟩
  · have hlinks : chained.Links (.stored 2) (some (.stored 1)) := ⟨_, rfl, rfl⟩
    have hend : chained.Links (.stored 1) none := ⟨_, rfl, rfl⟩
    rintro ⟨entry, hentry, hleft⟩
    rw [get?_invalidate_of_pair hlinks hend (by decide) (by decide)] at hentry
    cases hentry
    cases hleft
  · have hout : departedBehind.Out (.stored 1) := ⟨_, rfl, rfl⟩
    rintro ⟨entry, hentry, hleft⟩
    rw [invalidate_of_out hout] at hentry
    cases hentry
    cases hleft

end CodeVault
