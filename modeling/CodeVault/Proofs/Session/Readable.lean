import CodeVault.Proofs.Container.Strings
import CodeVault.Proofs.Session.Gating
import CodeVault.Proofs.Session.Lenient
import CodeVault.Proofs.Symbol.Capacity

/-!
# Whether a session can be opened on what another has written

A container is accepted with entries of no kind in it, as long as its numbers by kind add up to its
entries. What is written from such a container counts entries of some kind only.

* no session stores an entry of no kind; it can only have been loaded (`Faithful.loaded_of_kind?`);
* **what closing has written is in order exactly when all that survived is of some kind**
  (`close_readable_iff`);
* **a process without strings starts a session on it exactly if it suits the process** (`Suits`,
  `accepts_iff`): it has the same fingerprint, what survived is of some kind, and the strings are
  text.
-/

namespace CodeVault

open Bytes Session

/-- Bytes that a process of a fingerprint accepts as a container, with an index over it. -/
def Container.Readable (image : Bytes) (fingerprint : Fingerprint) : Prop :=
  ∃ container index, Container.ofBytes image = .ok container ∧
    fingerprint.verify container.header.fingerprint = .ok () ∧ container.loadIndex = .ok index

namespace History

variable {history : History} {strings : List CText} {path : String} {files : FileStore}
  {arena : Arena} {merged : Merged} {image : Bytes} {header : Header} {entries : List Entry}

/-- **What was written is refused if anything of no kind survived.** -/
theorem Faithful.refuses_written (h : history.Faithful)
    (hwritten : history.session.Written strings path files arena merged image header entries)
    {origin : Origin} (hsurvives : origin ∈ history.survivors) (hkind : origin.kind? = some .none) :
    ∃ total, total < history.survivors.length ∧
      Container.ofBytes image = .error (.layout (.kindCounts total history.survivors.length)) := by
  have hkinds := h.kinds_merged hwritten
  have hcount : merged.entries.size = history.survivors.length := by
    rw [hkinds.length_eq, Array.length_toList]
  obtain ⟨place, hplace⟩ := List.getElem?_of_mem hsurvives
  obtain ⟨kept, hkept, hsame⟩ := exists_getElem?_of_forall₂ hkinds hplace
  have hnone : kept.kind = .none := Option.some.inj (hsame.symm.trans hkind)
  obtain ⟨hlt, herror⟩ := hwritten.laid.ofBytes_error (List.mem_of_getElem? hkept) hnone
  rw [hcount] at hlt herror
  exact ⟨_, hlt, herror⟩

end History

section Runs

variable {files before : FileStore} {config : Config} {fingerprint : Fingerprint}
  {known symbols table : SymbolTable} {opened : Session} {calls : List (LiveProcess × Call)}
  {now : UInt64} {closing : Closing}

/-- **What closing has written is in order exactly when all that survived is of some kind.**
    Whatever the session was started on, and whatever was called in it: if closing answers a path,
    the bytes there are accepted by a process of the same fingerprint, with an index, unless an
    entry of no kind survived. Such an entry was loaded, and its container is refused because of its
    numbers by kind. -/
theorem close_readable_iff {path : String}
    (hstart : Session.start files config fingerprint known = .ok (opened, symbols))
    (hclose : close table now ⟨(opened.history calls).session, before⟩ = .ok (some path) closing) :
    ∃ image, closing.files.map path = .ok image ∧
      (Container.Readable image fingerprint ↔
        ∀ origin ∈ (opened.history calls).survivors, origin.kind? ≠ some .none) ∧
      ∀ origin ∈ (opened.history calls).survivors, origin.kind? = some .none →
        (∃ i, origin = ⟨opened, .loaded i⟩) ∧
          ∃ total, total < (opened.history calls).survivors.length ∧
            Container.ofBytes image =
              .error (.layout (.kindCounts total (opened.history calls).survivors.length)) := by
  have hopened := opened_of_start hstart
  have hfaithful := hopened.faithful calls
  obtain ⟨arena, merged, image, header, entries, hwritten⟩ := written_of_close hclose
  refine ⟨image, hwritten.file, ⟨?_, fun hkinds => ?_⟩, fun origin hsurvives hkind => ?_⟩
  · rintro ⟨container, index, haccepted, -, -⟩ origin hsurvives hkind
    obtain ⟨total, -, herror⟩ := hfaithful.refuses_written hwritten hsurvives hkind
    cases haccepted.symm.trans herror
  · obtain ⟨haccepted, hverified, search, preload, hindex⟩ :=
      hfaithful.opens_survivors hkinds hwritten
    rw [hopened.fingerprint_history] at hverified
    exact ⟨_, _, haccepted, hverified, hindex⟩
  · obtain ⟨i, hloaded, -⟩ := hfaithful.loaded_of_kind? (List.mem_of_mem_filter hsurvives) hkind
    rw [opened_history] at hloaded
    exact ⟨⟨i, hloaded⟩, hfaithful.refuses_written hwritten hsurvives hkind⟩

/-- The container of one method whose entry says that it is of no kind; its numbers still say that
    it is a method. -/
def unkindedContainer : Container :=
  { preloadContainer with bytes := preloadImage.overwrite 112 (ofU32 0) }

/-- A session that was started on it. -/
def unkinded : Session :=
  { updated with
    container := some unkindedContainer
    index := ⟨#[{ preloadMethod with kind := .none, offset := 168 }], #[⟨7, 0⟩], #[0], #[]⟩ }

theorem start_unkinded :
    Session.start (fileAtApp unkindedContainer.bytes) updating plain idle =
      .ok (unkinded, idle) := by
  have hheader : Header.decode unkindedContainer.bytes = .ok unkindedContainer.header := by
    decide +kernel
  have hindex : unkindedContainer.loadIndex = .ok unkinded.index := by decide +kernel
  have hstrings : unkindedContainer.strings = .ok [] := by decide +kernel
  exact start_at_app unkindedContainer hheader rfl hindex hstrings

theorem close_readable_iff_unkinded :
    ∃ closing image, close idle 0 ⟨(unkinded.history []).session, fileAtApp unkindedContainer.bytes⟩
        = .ok (some "app") closing ∧
      closing.files.map "app" = .ok image ∧ ¬Container.Readable image plain := by
  have hfinal : (unkinded.history []).session.finalBytes? idle.strings.texts 0 ≠ none := by
    decide +kernel
  have hopen : (unkinded.history []).session.state ≠ .closed := by decide
  obtain ⟨image, himage⟩ := Option.ne_none_iff_exists'.1 hfinal
  have hclose := close_at_app unkindedContainer.bytes hopen rfl himage
  obtain ⟨written, hfile, hreadable, -⟩ := close_readable_iff start_unkinded hclose
  refine ⟨_, written, hclose, hfile, fun hread => ?_⟩
  have hsurvivors : (unkinded.history []).survivors = [⟨unkinded, .loaded 0⟩] := rfl
  have hkinds := hreadable.1 hread
  rw [hsurvivors] at hkinds
  exact hkinds _ List.mem_cons_self rfl

end Runs

/-! ## Processes without strings -/

namespace Session

/-- Symbols without strings have none that are pinned. -/
theorem pinned_of_blank {known : SymbolTable} (hknown : known.Reached)
    (hblank : known.strings.texts = []) :
    known.strings.pinned = 0 := by
  have hle := hknown.sound.strings.pinned_le
  rw [← StringTable.length_texts, hblank] at hle
  exact Nat.eq_zero_of_le_zero hle

/-- The strings of a container are all that there is in symbols which had none before. -/
theorem texts_of_loadStrings {known symbols : SymbolTable} {strings : List CText}
    (hknown : known.Reached) (hblank : known.strings.texts = [])
    (hload : known.loadStrings strings = .ok symbols) :
    symbols.strings.texts = strings := by
  unfold SymbolTable.loadStrings at hload
  cases hstrings : known.strings.load strings with
  | error cause => simp [hstrings] at hload
  | ok after =>
    simp only [hstrings, Except.ok.injEq] at hload
    rw [← hload, StringTable.texts_load hstrings, pinned_of_blank hknown hblank, hblank]
    simp

/-- Symbols without strings take any list that is not longer than a table may be. -/
theorem loadStrings_of_blank {known : SymbolTable} {strings : List CText} (hknown : known.Reached)
    (hblank : known.strings.texts = []) :
    (∃ symbols, known.loadStrings strings = .ok symbols) ↔ strings.length ≤ maxStrings := by
  have hpinned := pinned_of_blank hknown hblank
  have hneeds : known.strings.needed strings + known.strings.repeated strings = strings.length := by
    simp [StringTable.needed, StringTable.repeated, hpinned, hblank]
  constructor
  · rintro ⟨symbols, hload⟩
    refine Nat.not_lt.1 fun hfull => ?_
    rw [← hneeds, ← StringTable.load_eq_full_iff] at hfull
    simp [SymbolTable.loadStrings, hfull] at hload
  · intro hroom
    obtain ⟨after, hload⟩ := StringTable.exists_load (by rwa [hneeds])
      fun i hi => absurd (hpinned ▸ hi) (Nat.not_lt_zero i)
    exact ⟨{ known with strings := after }, by simp only [SymbolTable.loadStrings, hload]⟩

/-- What a session leaves suits the processes of a fingerprint: it is the session's own, all that
    survives is of some kind, and the strings are text, and not more than a table may have. -/
structure Suits (writer : Session) (strings : List CText) (fingerprint : Fingerprint) : Prop where
  fingerprint : writer.fingerprint = fingerprint
  kinds : ∀ id entry, writer.entry? id = some entry → entry.survives = true → entry.kind ≠ .none
  text : ∀ text ∈ strings, text.IsText
  room : strings.length ≤ maxStrings

section Written

variable {writer : Session} {wrote known : SymbolTable} {written : UInt64}
  {elsewhere files : FileStore}
  {first path : String} {image : Bytes} {closed : Closing} {config : Config}
  {fingerprint : Fingerprint}

/-- **What was written suits a process without strings exactly if the process accepts it.** -/
theorem loads_iff (hwritten : close wrote written ⟨writer, elsewhere⟩ = .ok (some first) closed)
    (himage : closed.files.map first = .ok image) (hfile : files.map path = .ok image)
    (hknown : known.Reached) (hblank : known.strings.texts = []) :
    (∃ loaded, loadContainer files path fingerprint known = .ok (some loaded)) ↔
      Suits writer wrote.strings.texts fingerprint := by
  obtain ⟨arena, merged, built, header, entries, h⟩ := written_of_close hwritten
  obtain rfl : built = image := Except.ok.inj (h.file.symm.trans himage)
  obtain ⟨keys, hsorted⟩ := h.sorted
  have hkinds : (∀ entry ∈ merged.entries.toList, entry.kind ≠ .none) ↔
      ∀ id entry, writer.entry? id = some entry → entry.survives = true → entry.kind ≠ .none :=
    h.holds.kinds_iff.trans (EntryIndex.forall_items fun entry => entry.survives = true →
      entry.kind ≠ .none)
  constructor
  · rintro ⟨⟨container, index, symbols⟩, hload⟩
    obtain ⟨source, texts, hsource, haccepted, hverified, -, htexts, hsymbols⟩ :=
      loadContainer_eq_some.1 hload
    obtain rfl : source = built := Except.ok.inj (hsource.symm.trans hfile)
    obtain rfl := h.laid.eq_of_ofBytes haccepted
    obtain rfl := h.laid.eq_of_strings htexts
    have hprint : writer.fingerprint = fingerprint := by
      rw [← Fingerprint.eq_of_verify hverified, ← h.laid.fingerprint]
    refine ⟨hprint, hkinds.1 fun entry hmem hnone => ?_, ?_,
      (loadStrings_of_blank hknown hblank).1 ⟨_, hsymbols⟩⟩
    · cases haccepted.symm.trans (h.laid.ofBytes_error hmem hnone).2
    · exact h.laid.isText_of_strings htexts
  · rintro ⟨hprint, hsome, htext, hroom⟩
    obtain ⟨symbols, hsymbols⟩ := (loadStrings_of_blank hknown hblank).2 hroom
    have hverified : fingerprint.verify header.fingerprint = .ok () := by
      rw [Fingerprint.verify, h.laid.fingerprint, Fingerprint.firstDifference?_eq_none.2 hprint]
    exact ⟨_, loadContainer_eq_some.2 ⟨_, _, hfile, h.laid.ofBytes_ok (hkinds.2 hsome), hverified,
      h.laid.loadIndex_ok h.holds hsorted, h.laid.strings_ok htext, hsymbols⟩⟩

/-- **A process without strings starts a session on what was written exactly if it suits the
    process.** -/
theorem accepts_iff (hwritten : close wrote written ⟨writer, elsewhere⟩ = .ok (some first) closed)
    (himage : closed.files.map first = .ok image) (hpath : config.loadPath = some path)
    (hfile : files.map path = .ok image) (hknown : known.Reached)
    (hblank : known.strings.texts = []) :
    (∃ opened symbols, Session.start files config fingerprint known = .ok (opened, symbols) ∧
        opened.container.isSome = true) ↔
      Suits writer wrote.strings.texts fingerprint := by
  rw [← loads_iff hwritten himage hfile hknown hblank]
  constructor
  · rintro ⟨opened, symbols, hstart, hloaded⟩
    rcases start_cases hstart with ⟨hnone, -⟩ | ⟨place, container, hplace, -, -, hload⟩
    · rw [hnone] at hloaded
      cases hloaded
    · obtain rfl : place = path := Option.some.inj (hplace.symm.trans hpath)
      exact ⟨_, hload⟩
  · rintro ⟨⟨container, index, symbols⟩, hload⟩
    obtain ⟨arena, hstart⟩ := start_of_loaded hpath hload
    exact ⟨_, _, hstart, rfl⟩

end Written

end Session

end CodeVault
