import CodeVault.Proofs.Container.Redated
import CodeVault.Proofs.Session.Names
import CodeVault.Proofs.Session.Readable

/-!
# Containers that are written again

A run that only uses what it has loaded leaves the container that it was started on.

* using entries changes nothing of them that is kept, as long as no preload code is taken out of use
  (`EntryIndex.Uses`, `Entry.Used.repeats`);
* a run that stores nothing and in which no load fails changes the index and the counters only, and
  uses its entries (`uses_of_calls`);
* **closing such a run writes the container that was loaded again, byte for byte**, but for the time
  at which it was made (`close_again`).
-/

namespace CodeVault

open Bytes

/-! ## 1. Using entries -/

/-- What becomes of an entry that is used: preload code is not taken out of use. -/
structure Entry.Used (entry now : Entry) : Prop where
  became : entry.Became now
  loadFail : now.flags.loadFail = entry.flags.loadFail
  entrant : entry.flags.forPreload = true → now.flags.notEntrant = entry.flags.notEntrant

theorem Entry.Used.refl (entry : Entry) : entry.Used entry := ⟨.refl entry, rfl, fun _ => rfl⟩

theorem Entry.Used.trans {first second third : Entry} (h : first.Used second)
    (h' : second.Used third) :
    first.Used third := by
  refine ⟨h.became.trans h'.became, h'.loadFail.trans h.loadFail, fun hpreload => ?_⟩
  have hsecond : second.flags.forPreload = true := h.became.forPreload.trans hpreload
  exact (h'.entrant hsecond).trans (h.entrant hpreload)

namespace EntryIndex

variable {index : EntryIndex} {id : EntryId}

/-- The entries of an index are those of another, after they were used. -/
def Uses (before after : EntryIndex) : Prop :=
  ∀ id, Option.Rel Entry.Used (before.get? id) (after.get? id)

theorem Uses.refl (index : EntryIndex) : index.Uses index := by
  intro id
  cases index.get? id with
  | none => exact .none
  | some entry => exact .some (.refl entry)

theorem Uses.trans {first second third : EntryIndex} (h : first.Uses second)
    (h' : second.Uses third) :
    first.Uses third := by
  intro id
  have hfirst := h id
  have hsecond := h' id
  generalize first.get? id = one, second.get? id = two, third.get? id = three at hfirst hsecond ⊢
  cases hfirst with
  | none =>
    cases hsecond
    exact .none
  | some hused =>
    cases hsecond with
    | some hused' => exact .some (hused.trans hused')

/-- Changing flags of one entry is using it, if the change is a use of that entry. -/
theorem uses_flag {f : EntryFlags → EntryFlags}
    (h : ∀ entry, index.get? id = some entry → entry.Used { entry with flags := f entry.flags }) :
    index.Uses (index.flag id f) := by
  intro other
  rw [get?_flag]
  cases hget : index.get? other with
  | none => exact .none
  | some entry =>
    rw [Option.map_some]
    by_cases heq : other = id
    · subst heq
      rw [if_pos rfl]
      exact .some (h entry hget)
    · rw [if_neg heq]
      exact .some (.refl entry)

theorem uses_markLoaded (id : EntryId) : index.Uses (index.markLoaded id) :=
  uses_flag fun _ _ => ⟨⟨rfl, rfl, rfl, rfl, fun h => h⟩, rfl, fun _ => rfl⟩

/-- **Invalidating an entry without a link that is no preload code is using it.** -/
theorem uses_invalidate
    (h : ∀ entry, index.get? id = some entry → entry.next = none ∧ entry.flags.forPreload = false) :
    index.Uses (index.invalidate id).2 := by
  have hleave : index.Uses (index.leave id) := by
    refine uses_flag fun entry hentry =>
      ⟨⟨rfl, rfl, rfl, rfl, fun _ => rfl⟩, rfl, fun hpreload => ?_⟩
    cases (h entry hentry).2.symm.trans hpreload
  rcases invalidate_cases index id with
    ⟨-, hsame⟩ | ⟨entry, hentry, -, ⟨-, hleft⟩ | ⟨next, hlink, -⟩⟩
  · rw [hsame]
    exact .refl index
  · rw [hleft]
    exact hleave
  · cases (h entry hentry).1.symm.trans hlink

/-- What has become of an entry that was used. -/
theorem Uses.entry_cases {before after : EntryIndex} {now : Entry} (h : before.Uses after)
    (hnow : after.get? id = some now) : ∃ entry, before.get? id = some entry ∧ entry.Used now := by
  have hrel := h id
  rw [hnow] at hrel
  cases hbefore : before.get? id with
  | none =>
    rw [hbefore] at hrel
    cases hrel
  | some entry =>
    rw [hbefore] at hrel
    cases hrel with
    | some hused => exact ⟨entry, rfl, hused⟩

/-- An index without stored entries has none after use. -/
theorem Uses.stored {before after : EntryIndex} (h : before.Uses after)
    (hstored : before.stored = #[]) :
    after.stored = #[] := by
  refine Array.eq_empty_of_size_eq_zero (Nat.eq_zero_of_not_pos fun hpos => ?_)
  have hget : after.get? (.stored 0) = some after.stored[0] := Array.getElem?_eq_getElem hpos
  obtain ⟨entry, hentry, -⟩ := h.entry_cases hget
  have hnone : before.stored[0]? = some entry := hentry
  rw [hstored] at hnone
  cases hnone

/-- **The loaded entries of an index that was used are those that were loaded, in their order.** -/
theorem Uses.loaded {before after : EntryIndex} (h : before.Uses after) :
    List.Forall₂ Entry.Used before.loaded.toList after.loaded.toList := by
  refine forall₂_of_getElem? fun i => ?_
  rw [Array.getElem?_toList, Array.getElem?_toList]
  exact h (.loaded i)

end EntryIndex

/-! ## 2. What is kept of used entries -/

/-- **An entry of a container that was used repeats what the container carries on.** -/
theorem Entry.Used.repeats {container : Container} {item : Item} {entry now : Entry}
    (hused : entry.Used now) (hcarried : item.CarriedBy container entry)
    (hsurvives : item.entry.survives = true) :
    Merged.Repeats container.bytes item now := by
  have hkept := hcarried.kept
  unfold Entry.KeptAs at hkept
  have hsame := hused.became.same
  have hpreload : now.flags.forPreload = item.entry.flags.forPreload := by
    rw [hused.became.forPreload, hkept]
  have hbarriers : now.flags.initBarriers = item.entry.flags.initBarriers := by
    rw [hused.became.initBarriers, hkept]
  have hoffline : now.flags.ignoreDecompile = item.entry.flags.ignoreDecompile := by
    rw [hused.became.ignoreDecompile, hkept]
  have hloads : now.flags.loadFail = false := by rw [hused.loadFail, hkept]; rfl
  -- Preload code is entrant on both sides: that of the item survives, and that of the container was
  -- not touched.
  have hentrant : item.entry.flags.forPreload = true →
      now.flags.notEntrant = false ∧ item.entry.flags.notEntrant = false := by
    intro hlisted
    have hfirst : entry.flags.forPreload = true := by rw [hkept]; exact hlisted
    refine ⟨by rw [hused.entrant hfirst, hkept]; rfl, ?_⟩
    simp only [Entry.survives, hlisted, Bool.and_true, Bool.and_eq_true, Bool.not_eq_true']
      at hsurvives
    exact hsurvives.2
  obtain ⟨bytes, hbytes, hread⟩ := hcarried.payload
  refine ⟨?_, fun offset => ?_, ?_, ?_⟩
  · cases hlisted : item.entry.flags.forPreload with
    | false => simp [Entry.survives, hloads, hpreload, hlisted]
    | true => simp [Entry.survives, hloads, hentrant hlisted]
  · unfold Merged.keptEntry
    rw [hsame, hkept]
    simp [EntryFlags.persistent, hpreload, hbarriers, hoffline]
  · have hkind : now.kind = item.entry.kind := by rw [hsame, hkept]
    cases hlisted : item.entry.flags.forPreload with
    | false => simp [Entry.isPreloadCode, hpreload, hlisted]
    | true =>
      simp [Entry.isPreloadCode, Entry.isEntrant, hpreload, hlisted, hkind, hentrant hlisted]
  · rw [hbytes, hsame]
    unfold Container.payload Bytes.readAt at hread
    split at hread
    · rename_i hslice
      cases hread
      exact hslice
    · cases hread

/-! ## 3. Runs that use what was loaded -/

namespace Session

variable {session opened : Session} {process : LiveProcess} {call : Call}

/-- A load in which nothing fails is a use of the entries. -/
theorem uses_load {id : EntryId} (hquiet : session.cannotRead process id = false) :
    ∃ index counters, stateOf (load process id session) = { session with index, counters } ∧
      session.index.Uses index := by
  rcases load_cases process session id with
    ⟨stop, -, hload⟩ | ⟨-, -, artifact, -, -, -, -, -, -, hload⟩ | ⟨cause, hbroken, -⟩
  · rw [hload]
    exact ⟨session.index, session.counters, rfl, .refl _⟩
  · rw [hload]
    exact ⟨_, _, rfl, EntryIndex.uses_markLoaded id⟩
  · cases hquiet.symm.trans hbroken

/-- **A call that stores nothing, fails to load nothing and takes no preload code out of use is a
    use of the entries.** -/
theorem uses_after (hstores : ∀ artifact, call ≠ .store artifact)
    (hfails : session.failing? process call = none)
    (hspares : ∀ id entry, call = .invalidate id → session.entry? id = some entry →
      entry.next = none ∧ entry.flags.forPreload = false) :
    ∃ index counters, session.after process call = { session with index, counters } ∧
      session.index.Uses index := by
  cases call with
  | store artifact => exact absurd rfl (hstores artifact)
  | find query =>
    obtain ⟨counters, hfound⟩ := session.find_eq query
    exact ⟨session.index, counters, hfound, .refl _⟩
  | load id =>
    have hload : (if session.cannotRead process id then some id else none) = none := hfails
    exact uses_load (by simpa using hload)
  | lookup query =>
    rcases lookup_cases process session query with
      ⟨counters, hlookup, -⟩ | ⟨id, counted, hlookup, hfailing⟩
    · exact ⟨session.index, counters, hlookup, .refl _⟩
    · rw [hfailing] at hfails
      have hquiet : cannotRead process { session with counters := counted } id = false := by
        simpa using hfails
      obtain ⟨index, counters, hload, huses⟩ := uses_load hquiet
      exact ⟨index, counters, hlookup.trans hload, huses⟩
  | preloadEntries => exact ⟨session.index, session.counters, rfl, .refl _⟩
  | invalidate id =>
    exact ⟨_, _, rfl, EntryIndex.uses_invalidate fun entry hentry => hspares id entry rfl hentry⟩

/-- **A run that stores nothing, in which no load fails and no preload code is taken out of use,
    uses the entries that were loaded**, and changes nothing of its session but the index and the
    counters. -/
theorem uses_of_calls {calls : List (LiveProcess × Call)}
    (hlinks : ∀ id entry, opened.entry? id = some entry → entry.next = none)
    (hstores : ∀ process artifact, (process, Call.store artifact) ∉ calls)
    (hfails : (opened.history calls).failures = [])
    (hspares : ∀ process id entry, (process, Call.invalidate id) ∈ calls →
      opened.entry? id = some entry →
      entry.flags.forPreload = false) :
    ∃ index counters, (opened.history calls).session = { opened with index, counters } ∧
      opened.index.Uses index := by
  induction calls using List.reverseRecOn with
  | nil => exact ⟨opened.index, opened.counters, rfl, .refl _⟩
  | append_singleton calls call ih =>
    rw [history_append] at hfails ⊢
    obtain ⟨hearlier, hlast⟩ := List.append_eq_nil_iff.1 hfails
    obtain ⟨index, counters, hsession, huses⟩ := ih
      (fun process artifact hmem => hstores process artifact (List.mem_append_left _ hmem)) hearlier
      fun process id entry hmem => hspares process id entry (List.mem_append_left _ hmem)
    obtain ⟨process, request⟩ := call
    have hquiet : (opened.history calls).session.failing? process request = none := by
      cases hfailing : (opened.history calls).session.failing? process request with
      | none => rfl
      | some id =>
        simp only [hfailing] at hlast
        cases hlast
    have hcalled : (process, request) ∈ calls ++ [(process, request)] :=
      List.mem_append_right _ (List.mem_singleton.2 rfl)
    obtain ⟨last, counted, hafter, hmore⟩ := uses_after
      (fun artifact hstore => hstores process artifact (hstore ▸ hcalled)) hquiet
      fun id now hinvalidate hnow => by
        rw [hsession] at hnow
        obtain ⟨entry, hentry, hused⟩ := huses.entry_cases hnow
        refine ⟨?_, hused.became.forPreload.trans
          (hspares process id entry (hinvalidate ▸ hcalled) hentry)⟩
        rw [hused.became.same]
        exact hlinks id entry hentry
    rw [hsession] at hafter hmore
    have hstep : ((opened.history calls).run [(process, request)]).session
        = (opened.history calls).session.after process request := rfl
    exact ⟨last, counted, by rw [hstep, hsession, hafter], huses.trans hmore⟩

/-! ## 4. The container of an unchanged run -/

/-- A session that was started on the container which a writer left of its merge. -/
structure Resumes (writer opened : Session) (arena : Arena) (merged : Merged) (strings : List CText)
    (written : UInt64) (image : Bytes) (header : Header) : Prop where
  merge : writer.index.merge writer.image arena.bytes = .ok merged
  kept : merged.entries ≠ #[]
  built : Container.build strings merged opened.fingerprint written = .ok image
  enabled : opened.failed = false
  container : opened.container = some ⟨image, header⟩
  stored : opened.index.stored = #[]
  carries : List.Forall₂ (Item.CarriedBy ⟨image, header⟩)
    ((writer.index.items writer.image arena.bytes).filter (·.entry.survives))
    opened.index.loaded.toList

section Again

variable {writer : Session} {wrote known symbols : SymbolTable} {written : UInt64}
  {elsewhere files : FileStore} {first path target : String} {image : Bytes} {closed : Closing}
  {config : Config} {fingerprint : Fingerprint} {arena spare : Arena} {merged : Merged}
  {strings : List CText} {header : Header} {index : EntryIndex}

/-- **A session that has loaded a container which was written resumes it**, with the strings that
    were written. -/
theorem resumes_of_start (hwritten : close wrote written ⟨writer, elsewhere⟩ =
      .ok (some first) closed)
    (himage : closed.files.map first = .ok image) (hpath : config.loadPath = some path)
    (hfile : files.map path = .ok image)
    (hstart : Session.start files config fingerprint known = .ok (opened, symbols))
    (hloaded : opened.container.isSome = true) :
    (∃ arena merged header, Resumes writer opened arena merged wrote.strings.texts written
      image header) ∧
      known.loadStrings wrote.strings.texts = .ok symbols := by
  obtain ⟨arena, merged, built, hfinal, hkept, hbuild, hmap⟩ := build_of_close hwritten
  obtain rfl : built = image := Except.ok.inj (hmap.symm.trans himage)
  obtain ⟨header, entries, hlaid⟩ := Container.laid_of_build hbuild
  obtain ⟨hholds, keys, hsorted⟩ := Merged.holds_of_merge hfinal.merge
  rcases start_cases hstart with
    ⟨hnone, -⟩ | ⟨place, container, hplace, henabled, hcontainer, hload⟩
  · rw [hnone] at hloaded
    cases hloaded
  obtain rfl : place = path := Option.some.inj (hplace.symm.trans hpath)
  obtain ⟨source, texts, hsource, haccepted, hverified, hindex, htexts, hsymbols⟩ :=
    loadContainer_eq_some.1 hload
  obtain rfl : source = built := Except.ok.inj (hsource.symm.trans hfile)
  obtain rfl := hlaid.eq_of_ofBytes haccepted
  obtain rfl := hlaid.eq_of_strings htexts
  have hloadedIndex : opened.index = _ :=
    Except.ok.inj (hindex.symm.trans (hlaid.loadIndex_ok hholds hsorted))
  have hprint : writer.fingerprint = opened.fingerprint := by
    rw [(opened_of_start hstart).fingerprint, ← Fingerprint.eq_of_verify hverified,
      ← hlaid.fingerprint]
  refine ⟨⟨arena, merged, header, hfinal.merge, hkept, hprint ▸ hbuild, henabled, hcontainer, ?_,
    ?_⟩, hsymbols⟩
  · rw [hloadedIndex]
  · rw [hloadedIndex]
    exact hlaid.carries hholds

/-- Entries that are resumed have no links. -/
theorem Resumes.next (h : Resumes writer opened arena merged strings written image header)
    {id : EntryId} {entry : Entry} (hentry : opened.entry? id = some entry) :
    entry.next = none := by
  cases id with
  | stored i =>
    have hget : opened.index.stored[i]? = some entry := hentry
    rw [h.stored] at hget
    cases hget
  | loaded i =>
    have hget : opened.index.loaded[i]? = some entry := hentry
    obtain ⟨item, -, hcarried⟩ :=
      exists_of_forall₂ h.carries (Array.mem_toList_iff.2 (Array.mem_of_getElem? hget))
    rw [hcarried.kept]

/-- **What a session leaves that has used the entries of a container is the container again.** -/
theorem Resumes.finalImage (h : Resumes writer opened arena merged strings written image header)
    (huses : opened.index.Uses index) (counters : Counters) (time : UInt64) :
    Session.finalImage { opened with index, counters } spare strings time
      = .ok (some (Header.redated image time)) := by
  have hrepeats : List.Forall₂ (Merged.Repeats image)
      ((writer.index.items writer.image arena.bytes).filter (·.entry.survives))
      index.loaded.toList := by
    have hall :=
      (List.forall₂_and_left _ _).2 ⟨fun item hmem => (List.mem_filter.1 hmem).2, h.carries⟩
    refine (forall₂_comp hall huses.loaded).imp fun item last hrel => ?_
    obtain ⟨entry, ⟨hsurvives, hcarried⟩, hused⟩ := hrel
    exact hused.repeats hcarried hsurvives
  obtain ⟨last, hlast, halike⟩ := Merged.merge_again h.merge (huses.stored h.stored) hrepeats
  have himage : Session.image { opened with index, counters } = image := by
    rw [Session.image, h.container]
    rfl
  have hkept : last.entries ≠ #[] := by
    obtain ⟨skipped, rfl⟩ := halike
    exact h.kept
  refine finalImage_of_build ?_ hkept (Container.build_again h.built halike time)
  rw [himage]
  exact hlast

/-- A session that has loaded a container which was written, and was only used, writes it again to
    whatever store path there is, as soon as the files take it; and it ends well in no other way. -/
theorem close_of_loaded {calls : List (LiveProcess × Call)} (table : SymbolTable) (now : UInt64)
    (before : FileStore) (hwritten : close wrote written ⟨writer, elsewhere⟩ =
      .ok (some first) closed)
    (himage : closed.files.map first = .ok image) (hpath : config.loadPath = some path)
    (hfile : files.map path = .ok image) (htarget : config.storePath = some target)
    (hknown : known.Reached) (hblank : known.strings.texts = [])
    (hstart : Session.start files config fingerprint known = .ok (opened, symbols))
    (hloaded : opened.container.isSome = true)
    (hstores : ∀ process artifact, (process, Call.store artifact) ∉ calls)
    (hfails : (opened.history calls).failures = [])
    (hspares : ∀ process id entry, (process, Call.invalidate id) ∈ calls →
      opened.entry? id = some entry →
      entry.flags.forPreload = false)
    (htable : table.strings.texts = symbols.strings.texts) :
    (∀ after, persist target (Header.redated image now) before = (.ok (), after) →
      ∃ closing, close table now ⟨(opened.history calls).session, before⟩ =
        .ok (some target) closing ∧
        closing.files = after) ∧
    ∀ result closing, close table now ⟨(opened.history calls).session, before⟩ =
      .ok result closing →
      result = some target ∧ closing.files.map target = .ok (Header.redated image now) := by
  obtain ⟨⟨arena, merged, header, hresumes⟩, hsymbols⟩ :=
    resumes_of_start hwritten himage hpath hfile hstart hloaded
  have htexts : table.strings.texts = wrote.strings.texts := by
    rw [htable, texts_of_loadStrings hknown hblank hsymbols]
  have hopened := opened_of_start hstart
  have hconfig : opened.config.storePath = some target := by rw [hopened.config, htarget]
  obtain ⟨hwrites, hopen⟩ := hopened.writes (by rw [hconfig]; rfl) hresumes.enabled
  obtain ⟨spare, hspare⟩ := Option.isSome_iff_exists.1 hwrites
  obtain ⟨index, counters, hsession, huses⟩ :=
    uses_of_calls (fun id entry => hresumes.next) hstores hfails hspares
  have hfinal : Session.finalImage { opened with index, counters } spare table.strings.texts now
      = .ok (some (Header.redated image now)) := by
    rw [htexts]
    exact hresumes.finalImage huses counters now
  have hlast : ({ opened with index, counters } : Session).state ≠ .closed := hopen
  rw [hsession]
  refine ⟨fun after hpersist => ?_, fun result closing hclose => ?_⟩
  · exact ⟨_, close_of_some hlast hresumes.enabled hspare hconfig hfinal hpersist, rfl⟩
  · obtain ⟨hresult, hpersist⟩ :=
      persist_of_close hlast hresumes.enabled hspare hconfig hfinal hclose
    exact ⟨hresult, map_persist hpersist⟩

/-- What closing has written is not shorter than a header. -/
theorem large_of_close (hwritten : close wrote written ⟨writer, elsewhere⟩ =
      .ok (some first) closed)
    (himage : closed.files.map first = .ok image) : Header.encodedSize ≤ image.size := by
  obtain ⟨arena, merged, built, header, entries, h⟩ := written_of_close hwritten
  obtain rfl : built = image := Except.ok.inj (h.file.symm.trans himage)
  have hlarge := h.laid.parts.headerAt.le
  rwa [Header.size_encode, Nat.zero_add] at hlarge

/-- **Closing an unchanged run writes the container that was loaded again, byte for byte**, but for
    the eight bytes of the time at which it was made. The container was written by a session,
    whatever had happened in it, and the process that opens it had no strings before. The process
    loads it exactly if it suits it: it has the same fingerprint, what survived is of some kind, and
    the strings are text. If in the run nothing is stored, no load fails, no preload code is
    invalidated, and no string is added, then closing writes the container again to whatever store
    path there is, as soon as the files take it; and it ends well in no other way. -/
theorem close_again (hwritten : close wrote written ⟨writer, elsewhere⟩ = .ok (some first) closed)
    (himage : closed.files.map first = .ok image) (hpath : config.loadPath = some path)
    (hfile : files.map path = .ok image) (htarget : config.storePath = some target)
    (hknown : known.Reached) (hblank : known.strings.texts = []) :
    ((∃ opened symbols, Session.start files config fingerprint known = .ok (opened, symbols) ∧
        opened.container.isSome = true) ↔ Suits writer wrote.strings.texts fingerprint) ∧
    ∀ opened symbols, Session.start files config fingerprint known = .ok (opened, symbols) →
      opened.container.isSome = true →
      ∀ calls : List (LiveProcess × Call),
        (∀ process artifact, (process, Call.store artifact) ∉ calls) →
        (opened.history calls).failures = [] →
        (∀ process id entry, (process, Call.invalidate id) ∈ calls → opened.entry? id = some entry →
          entry.flags.forPreload = false) →
        ∀ table : SymbolTable, table.strings.texts = symbols.strings.texts → ∀ now before,
          ∃ again, again = image.overwrite 16 (Bytes.ofU64 now) ∧ again.size = image.size ∧
            (∀ i, i < 16 ∨ 24 ≤ i → again[i]? = image[i]?) ∧
            (∀ after, persist target again before = (.ok (), after) →
              ∃ closing, close table now ⟨(opened.history calls).session, before⟩ =
                .ok (some target) closing ∧
                closing.files = after) ∧
            ∀ result closing, close table now ⟨(opened.history calls).session, before⟩ =
              .ok result closing →
              result = some target ∧ closing.files.map target = .ok again := by
  have hlarge := large_of_close hwritten himage
  refine ⟨accepts_iff hwritten himage hpath hfile hknown hblank,
    fun opened symbols hstart hloaded calls hstores hfails hspares table htable now before => ?_⟩
  exact ⟨Header.redated image now, rfl, Header.size_redated hlarge now,
    fun i hi => Header.getElem?_redated hlarge now hi,
    close_of_loaded table now before hwritten himage hpath hfile htarget hknown hblank hstart
      hloaded hstores hfails hspares htable⟩

end Again

/-! An example: a method is stored. Another run finds it, loads it, and invalidates it. -/

/-- A session that is started on a container without strings. -/
def sessionOn? (image : Bytes) : Option Session := do
  let container ← (Container.ofBytes image).toOption
  let _ ← (plain.verify container.header.fingerprint).toOption
  let index ← container.loadIndex.toOption
  let [] ← container.strings.toOption | none
  return { updated with container := some container, index }

theorem start_of_sessionOn? {image : Bytes} {opened : Session}
    (h : sessionOn? image = some opened) :
    Session.start (fileAtApp image) updating plain idle = .ok (opened, idle) ∧
      opened.container.isSome = true := by
  obtain ⟨container, haccepted, h⟩ := Option.bind_eq_some_iff.1 h
  obtain ⟨_, hverified, h⟩ := Option.bind_eq_some_iff.1 h
  obtain ⟨index, hindex, h⟩ := Option.bind_eq_some_iff.1 h
  obtain ⟨strings, hstrings, h⟩ := Option.bind_eq_some_iff.1 h
  split at h
  · cases h
    obtain ⟨header, hheader, hdone⟩ := except_bind_eq_ok.1 (toOption_eq_some.1 haccepted)
    cases hdone
    exact ⟨start_at_app ⟨image, header⟩ hheader (toOption_eq_some.1 hverified)
      (toOption_eq_some.1 hindex)
      (toOption_eq_some.1 hstrings), rfl⟩
  · cases h

/-- The method is found, loaded and invalidated. -/
def reusing : List (LiveProcess × Call) :=
  [.find ⟨.code, 2118147369, 0, 0⟩, .lookup ⟨.code, 2118147369, 0, 0⟩, .preloadEntries,
    .load (.loaded 0), .invalidate (.loaded 0)].map (Machine.idleProcess, ·)

/-- The session that has stored the method suits processes without any flag. -/
theorem suits_written : Suits Machine.written [] plain := by
  have hkinds : (Machine.written.index.items #[] #[]).all (·.entry.kind != .none) = true := by
    decide +kernel
  have hsome : ∀ item ∈ Machine.written.index.items #[] #[],
      item.entry.survives = true → item.entry.kind ≠ .none := by
    intro item hmem _
    simpa using List.all_eq_true.1 hkinds item hmem
  refine ⟨?_, (EntryIndex.forall_items _).1 hsome, fun _ hmem => absurd hmem List.not_mem_nil,
    Nat.zero_le _⟩
  rw [Machine.written, (steps_after Machine.idleProcess writing (.store Machine.beo)).fingerprint]
  rfl

theorem close_again_written : ∃ image opened closing,
    Machine.written.finalBytes? [] 0 = some image ∧ Suits Machine.written [] plain ∧
      Session.start (fileAtApp image) updating plain idle = .ok (opened, idle) ∧
      close idle 1 ⟨(opened.history reusing).session, fileAtApp image⟩ = .ok (some "app") closing ∧
      closing.files.map "app" = .ok (image.overwrite 16 (Bytes.ofU64 1)) := by
  -- The container is built, read and used in one evaluation: its bytes are spelled out nowhere.
  have hquiet : ((Machine.written.finalBytes? [] 0).bind fun image =>
      (sessionOn? image).map fun opened =>
        (opened.history reusing).failures.isEmpty &&
          (opened.entry? (.loaded 0)).all (!·.flags.forPreload)) = some true := by decide +kernel
  obtain ⟨image, himage, hquiet⟩ := Option.bind_eq_some_iff.1 hquiet
  obtain ⟨opened, hopened, hquiet⟩ := Option.map_eq_some_iff.1 hquiet
  rw [Bool.and_eq_true, List.isEmpty_iff] at hquiet
  obtain ⟨hfails, hregular⟩ := hquiet
  have hstores : ∀ process artifact, (process, Call.store artifact) ∉ reusing := by simp [reusing]
  have hspares : ∀ process id entry, (process, Call.invalidate id) ∈ reusing →
      opened.entry? id = some entry →
      entry.flags.forPreload = false := by
    intro process id entry hmem hentry
    obtain ⟨-, rfl⟩ : process = Machine.idleProcess ∧ id = .loaded 0 := by
      simpa [reusing] using hmem
    simpa [hentry] using hregular
  obtain ⟨haccepts, hwrites⟩ :=
    @close_again Machine.written idle idle 0 (fileAtApp #[]) (fileAtApp image) "app" "app" "app"
      image _ updating plain (Machine.close_written himage) (map_fileAtApp image) rfl
      (map_fileAtApp image) rfl ⟨_, _, [], rfl⟩ rfl
  -- The session that is started is the one that was evaluated.
  obtain ⟨started, symbols, hstart, hloaded⟩ := haccepts.2 suits_written
  cases (start_of_sessionOn? hopened).1.symm.trans hstart
  obtain ⟨again, rfl, -, -, hcloses, hholds⟩ :=
    hwrites opened idle hstart hloaded reusing hstores hfails hspares idle rfl 1 (fileAtApp image)
  obtain ⟨closing, hclose, -⟩ := hcloses _ (persist_fileAtApp image _)
  exact ⟨image, opened, closing, himage, suits_written, hstart, hclose, (hholds _ _ hclose).2⟩

end Session

end CodeVault
