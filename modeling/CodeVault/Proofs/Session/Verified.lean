import CodeVault.Proofs.CommandLine.Verify
import CodeVault.Proofs.Session.Unchanged

/-!
# What sessions write passes the check

The check of a container knows nothing of the sessions that wrote it: it reads the tables again, and
the name and the section descriptors of every entry.

* `Artifact.Found`: what is at an entry is the payload of an artifact, with its name and its
  sections; that lasts, and everything that is stored is found so;
* `Container.Vouched`: bytes that pass the check, at whose entries known artifacts are found;
* **on a machine to which nobody else brings containers, and where only text is interned, all
  containers are vouched for** (`Vouches.after`, `Vouches.run`), so that whatever a session has
  written passes the check (`written_verifies`).
-/

namespace CodeVault

open Bytes Cursor Session

/-! ## 1. Interned text -/

/-- All strings that the process has interned are text. -/
def SymbolTable.Textual (table : SymbolTable) : Prop := ∀ text ∈ table.strings.texts, text.IsText

/-- Only text is interned or loaded. -/
def SymbolEvent.Textual : SymbolEvent → Prop
  | .installed _ => True
  | .interned _ text => text.IsText
  | .loaded strings => ∀ text ∈ strings, text.IsText

namespace SymbolTable

variable {table after : SymbolTable}

theorem Textual.loadStrings {strings : List CText} (h : table.Textual)
    (hstrings : ∀ text ∈ strings, text.IsText) (hload : table.loadStrings strings = .ok after) :
    after.Textual := by
  unfold SymbolTable.loadStrings at hload
  split at hload
  · rename_i loaded hrun
    cases hload
    intro text hmem
    have htexts : text ∈ loaded.texts := hmem
    rw [StringTable.texts_load hrun] at htexts
    rcases List.mem_append.1 htexts with hpinned | hbehind
    · exact h text (List.mem_of_mem_take hpinned)
    · rcases List.mem_append.1 hbehind with hnew | hleft
      · exact hstrings text (List.mem_of_mem_drop hnew)
      · exact h text (List.mem_of_mem_drop ((List.diff_sublist _ _).subset hleft))
  · cases hload

/-- **A process that interns only text has only text.** -/
theorem Textual.apply {event : SymbolEvent} (h : table.Textual) (hevent : event.Textual) :
    (table.apply event).Textual := by
  cases event with
  | installed installation =>
    simp only [SymbolTable.apply, install]
    cases AddressTable.install installation table.addresses <;> exact h
  | interned pointer text =>
    cases hrun : table.strings.intern pointer text with
    | error e =>
      simp only [SymbolTable.apply, intern, hrun]
      exact h
    | ok result =>
      simp only [SymbolTable.apply, intern, hrun]
      obtain ⟨-, htexts | ⟨htexts, -⟩⟩ := StringTable.intern_ok hrun
      · exact fun other hmem => h other (htexts ▸ hmem)
      · intro other hmem
        have hother : other ∈ table.strings.texts ++ [text] := htexts ▸ hmem
        rcases List.mem_append.1 hother with hold | hnew
        · exact h other hold
        · rw [List.mem_singleton.1 hnew]
          exact hevent
  | loaded strings =>
    cases hload : table.loadStrings strings with
    | error e =>
      simp only [SymbolTable.apply, hload]
      exact h
    | ok after =>
      simp only [SymbolTable.apply, hload]
      exact h.loadStrings hevent hload

end SymbolTable

/-- Strings that are read from a container are text. -/
theorem Container.isText_of_strings {container : Container} {strings : List CText}
    (h : container.strings = .ok strings) : ∀ text ∈ strings, text.IsText := by
  have hitem : Answers CText.IsText readString := by
    intro s t text hrun
    obtain ⟨read, middle, -, hrest⟩ := bind_ok hrun
    obtain ⟨decoded, last, hdecode, hdone⟩ := bind_ok hrest
    obtain ⟨rfl, -⟩ := pure_ok hdone
    cases hutf : Utf8.decode text.val with
    | ok decoded => exact ⟨decoded, hutf⟩
    | error fault =>
      simp only [decodeText, hutf] at hdecode
      cases hdecode
  exact ((answers_readMany hitem _).of_runAt h).2

/-- Starting a session interns only text. -/
theorem Session.textual_start {files : FileStore} {config : Config} {fingerprint : Fingerprint}
    {before symbols : SymbolTable} {session : Session} (h : before.Textual)
    (hstart : Session.start files config fingerprint before = .ok (session, symbols)) :
    symbols.Textual := by
  rcases (opened_of_start hstart).source with
    ⟨-, -, rfl⟩ | ⟨container, strings, -, -, hstrings, hload⟩
  · exact h
  · exact h.loadStrings (Container.isText_of_strings hstrings) hload

/-! ## 2. What is found at an entry -/

/-- What is at an entry is a payload of the artifact: the entry has its kind and its id, and from
    the bytes its name and its section descriptors are read. -/
structure Artifact.Found (artifact : Artifact) (payload : Bytes) (entry : Entry) : Prop where
  kinded : artifact.kind ≠ .none
  kind : entry.kind = artifact.kind
  id : entry.id = artifact.id
  bytes : ∃ encoded, payload = artifact.payload encoded
  name : Payload.peekName payload entry = .ok artifact.name
  sections : Payload.peekSections payload entry = .ok artifact.descriptors

/-- A known artifact is found at the entry. -/
def Finds (known : Artifact → Prop) (payload : Bytes) (entry : Entry) : Prop :=
  ∃ artifact, known artifact ∧ artifact.Found payload entry

variable {known : Artifact → Prop}

theorem lasting_finds : Lasting (Finds known) := by
  rintro bytes entry other halike ⟨artifact, hknown, hkinded, hkind, hid, hpayload, hname,
    hsections⟩
  rw [halike]
  exact ⟨artifact, hknown, hkinded, hkind, hid, hpayload, hname, hsections⟩

/-- **An artifact is found where it was stored.** -/
theorem deposits_finds {process : LiveProcess} {artifact : Artifact} (h : known artifact) :
    Deposits (Finds known) process artifact := by
  intro offline arena after layout payload hstored
  obtain ⟨encoded, hencodes, rfl⟩ := hstored.encodes
  exact ⟨artifact, h, hstored.kind, rfl, rfl, ⟨encoded, rfl⟩,
    Context.peekName_of_encodes hencodes hstored.describes offline,
    Context.peekSections_of_encodes hencodes hstored.describes offline⟩

/-- Bytes that pass the check, and at whose entries known artifacts are found. -/
def Container.Vouched (known : Artifact → Prop) (image : Bytes) : Prop :=
  ∃ container entries, CommandLine.Passes image container entries ∧
    ∀ entry ∈ entries, ∃ payload, container.payload entry = .ok payload ∧ Finds known payload entry

/-- Bytes that are no container. -/
def Container.Refused (image : Bytes) : Prop := ∀ container, Container.ofBytes image ≠ .ok container

/-- **What a session writes is vouched for**, if known artifacts are found at all its entries. -/
theorem Session.AllEntries.vouched {session : Session} {path : String} {arena : Arena}
    {merged : Merged} {strings : List CText} {now : UInt64} {image : Bytes}
    (h : session.AllEntries (Finds known)) (hopen : session.state ≠ .closed)
    (hfinal : session.Finalizes path arena merged) (htexts : ∀ text ∈ strings, text.IsText)
    (hbuild : Container.build strings merged session.fingerprint now = .ok image) :
    Container.Vouched known image := by
  obtain ⟨header, entries, hlaid⟩ := Container.laid_of_build hbuild
  obtain ⟨hholds, keys, hsorted⟩ := Merged.holds_of_merge hfinal.merge
  have hfinds := h.laid lasting_finds hopen hfinal hlaid
  -- An entry of the merge is of the kind of the artifact that is found where it was laid out.
  have hkinds : ∀ entry ∈ merged.entries.toList, entry.kind ≠ .none := by
    intro entry hmem
    obtain ⟨place, hplace⟩ := List.getElem?_of_mem hmem
    obtain ⟨placed, hplaced, hrebased⟩ := exists_getElem?_of_forall₂ hlaid.entries hplace
    obtain ⟨payload, -, artifact, -, hfound⟩ := hfinds placed (List.mem_of_getElem? hplaced)
    have hkind : placed.kind = entry.kind := by rw [hrebased.2]
    rw [← hkind, hfound.kind]
    exact hfound.kinded
  refine ⟨⟨image, header⟩, entries, ⟨hlaid.ofBytes_ok hkinds, hlaid.entries_ok hholds,
    ⟨strings, hlaid.strings_ok htexts⟩, ⟨_, hlaid.loadIndex_ok hholds hsorted⟩, ?_⟩, hfinds⟩
  intro entry hmem
  obtain ⟨payload, hpayload, artifact, -, hfound⟩ := hfinds entry hmem
  exact CommandLine.verifyEntry_eq_ok.2 ⟨payload, _, _, hpayload, hfound.name, hfound.sections⟩

/-- Bytes that are no container or are vouched for. -/
def Container.Clean (known : Artifact → Prop) (image : Bytes) : Prop :=
  Refused image ∨ Vouched known image

theorem Container.Clean.allEntries {image : Bytes} (h : Clean known image) :
    AllEntries (Finds known) image := by
  intro container entries haccepted hentries
  rcases h with hrefused | ⟨vouched, read, hpasses, hfinds⟩
  · exact absurd haccepted (hrefused container)
  · cases hpasses.accepted.symm.trans haccepted
    cases hpasses.tables.symm.trans hentries
    exact hfinds

/-- **Closing a session, with whatever outcome, leaves clean files clean.** -/
theorem Session.clean_close {session : Session} {symbols : SymbolTable} (now : UInt64)
    {files : FileStore} (hfiles : files.Holds (Container.Clean known))
    (h : session.AllEntries (Finds known)) (htexts : symbols.Textual) :
    (stateOf (close symbols now ⟨session, files⟩)).files.Holds (Container.Clean known) := by
  by_cases hclosed : session.state = .closed
  · simp only [close, hclosed, if_true]
    exact hfiles
  · obtain ⟨failed, hstate⟩ := stateOf_close symbols now files hclosed
    rw [hstate]
    exact holds_leave hfiles fun path arena merged image hfinal hbuild =>
      .inr (h.vouched hclosed hfinal htexts hbuild)

namespace Machine

/-! ## 3. All containers on a machine -/

/-- All containers in files are vouched for, known artifacts are found at the entries of all
    sessions, and all that processes have interned is text. -/
structure Vouches (known : Artifact → Prop) (machine : Machine) : Prop where
  files : machine.files.Holds (Container.Clean known)
  sessions : ∀ number opened, (number, opened) ∈ machine.sessions →
    opened.session.AllEntries (Finds known)
  texts : ∀ process ∈ machine.processes, process.symbols.Textual

variable {machine : Machine} {number : Nat} {process : LiveProcess} {opened : OpenedSession}

theorem Vouches.allEntries (h : machine.Vouches known) : machine.AllEntries (Finds known) :=
  ⟨fun place bytes hmem => (h.files place bytes hmem).allEntries, h.sessions⟩

theorem Vouches.textual (h : machine.Vouches known)
    (hfind : machine.find? number = some (process, opened)) :
    process.symbols.Textual :=
  h.texts process (Array.mem_of_getElem? (find?_eq_some.1 hfind).2)

/-- What a move may do from outside: only text is interned, and somebody else leaves only files that
    were there, be it at another place, or are no containers. -/
def Move.Harmless (machine : Machine) : Move → Prop
  | .files left => ∀ place bytes, (place, Node.file bytes) ∈ left.nodes →
      Container.Refused bytes ∨ ∃ before, (before, Node.file bytes) ∈ machine.files.nodes
  | .symbols _ event => event.Textual
  | _ => True

/-- Nothing but harmless moves from outside, each where it happens. -/
def Undisturbed (machine : Machine) : List Move → Prop
  | [] => True
  | move :: moves => move.Harmless machine ∧ (machine.after move).Undisturbed moves

theorem files_drop (h : machine.Vouches known) (number : Nat) (now : UInt64) :
    (stateOf (drop number now machine)).files.Holds (Container.Clean known) := by
  cases hfind : machine.find? number with
  | none =>
    simp only [drop, hfind]
    exact h.files
  | some found =>
    rw [Machine.stateOf_drop hfind, Session.stateOf_drop]
    exact Session.clean_close now h.files (h.allEntries.session hfind) (h.textual hfind)

theorem files_close (h : machine.Vouches known) (number : Nat) (now : UInt64) :
    (stateOf (close number now machine)).files.Holds (Container.Clean known) := by
  cases hfind : machine.find? number with
  | none =>
    simp only [close, hfind]
    exact h.files
  | some found =>
    rw [Machine.stateOf_close hfind]
    exact Session.clean_close now h.files (h.allEntries.session hfind) (h.textual hfind)

theorem texts_setSymbols {symbols : SymbolTable}
    (h : ∀ process ∈ machine.processes, process.symbols.Textual) (hsymbols : symbols.Textual)
    (place : Nat) :
    ∀ process ∈ (machine.setSymbols place symbols).processes, process.symbols.Textual := by
  intro process hmem
  obtain ⟨other, hother⟩ := Array.getElem?_of_mem hmem
  change (machine.processes.modify place _)[other]? = _ at hother
  rw [Array.getElem?_modify] at hother
  split at hother
  · obtain ⟨_, -, rfl⟩ := Option.map_eq_some_iff.1 hother
    exact hsymbols
  · exact h process (Array.mem_of_getElem? hother)

/-- What a harmless move brings holds known artifacts, if it stores one. -/
theorem Vouches.adds (h : machine.Vouches known) {move : Move} (hharmless : move.Harmless machine)
    (hknown : ∀ number artifact, move = .call number (.store artifact) → known artifact) :
    move.Adds (Finds known) := by
  cases move with
  | files left =>
    intro place bytes hmem
    rcases hharmless place bytes hmem with hrefused | ⟨before, hbefore⟩
    · exact Container.Clean.allEntries (.inl hrefused)
    · exact (h.files before bytes hbefore).allEntries
  | call number call =>
    cases call with
    | store artifact => exact fun process => deposits_finds (hknown number artifact rfl)
    | find | load | lookup | preloadEntries | invalidate => trivial
  | symbols | start | close | drop => trivial

/-- Files stay clean over a harmless move. -/
theorem Vouches.files_after (h : machine.Vouches known) {move : Move}
    (hharmless : move.Harmless machine) :
    (machine.after move).files.Holds (Container.Clean known) := by
  cases move with
  | files left =>
    intro place bytes hmem
    rcases hharmless place bytes hmem with hrefused | ⟨before, hbefore⟩
    · exact .inl hrefused
    · exact h.files before bytes hbefore
  | symbols place event =>
    simp only [Machine.after]
    split <;> exact h.files
  | start number place config fingerprint now =>
    have hfiles := files_drop h number now
    simp only [Machine.after]
    rcases stateOf_start machine number place config fingerprint now with
      hleft | ⟨_, _, _, -, -, hleft⟩
    · rw [hleft]
      exact hfiles
    · rw [hleft]
      exact hfiles
  | call number call =>
    show (stateOf (machine.inSession number _)).files.Holds _
    unfold inSession
    split <;> exact h.files
  | close number now => exact files_close h number now
  | drop number now => exact files_drop h number now

/-- What processes have interned stays text over a harmless move. -/
theorem Vouches.texts_after (h : machine.Vouches known) {move : Move}
    (hharmless : move.Harmless machine) :
    ∀ process ∈ (machine.after move).processes, process.symbols.Textual := by
  cases move with
  | files left => exact h.texts
  | symbols place event =>
    cases hplace : machine.processes[place]? with
    | none =>
      simp only [Machine.after, hplace]
      exact h.texts
    | some process =>
      simp only [Machine.after, hplace]
      exact texts_setSymbols h.texts
        ((h.texts process (Array.mem_of_getElem? hplace)).apply hharmless) place
  | start number place config fingerprint now =>
    have htexts : ∀ process ∈ (stateOf (drop number now machine)).processes,
        process.symbols.Textual := by
      rw [processes_drop]
      exact h.texts
    simp only [Machine.after]
    rcases stateOf_start machine number place config fingerprint now with
      hleft | ⟨starter, session, symbols, hhome, hstart, hleft⟩
    · rw [hleft]
      exact htexts
    · rw [hleft]
      have hsymbols := Session.textual_start (htexts starter (Array.mem_of_getElem? hhome)) hstart
      exact texts_setSymbols htexts hsymbols place
  | call number call =>
    show ∀ process ∈ (stateOf (machine.inSession number _)).processes, _
    unfold inSession
    split <;> exact h.texts
  | close number now =>
    show ∀ process ∈ (stateOf (close number now machine)).processes, _
    rw [processes_close]
    exact h.texts
  | drop number now =>
    show ∀ process ∈ (stateOf (drop number now machine)).processes, _
    rw [processes_drop]
    exact h.texts

/-- **One more move leaves all containers vouched for**, if it is harmless and stores a known
    artifact. -/
theorem Vouches.after (h : machine.Vouches known) {move : Move} (hharmless : move.Harmless machine)
    (hknown : ∀ number artifact, move = .call number (.store artifact) → known artifact) :
    (machine.after move).Vouches known :=
  ⟨h.files_after hharmless, (h.allEntries.after lasting_finds (h.adds hharmless hknown)).sessions,
    h.texts_after hharmless⟩

/-- **Whatever happens on a machine, all containers stay vouched for**, if what comes from outside
    is harmless and all artifacts that are stored are known. -/
theorem Vouches.run {moves : List Move} (h : machine.Vouches known)
    (halone : machine.Undisturbed moves)
    (hknown : ∀ number artifact, Move.call number (.store artifact) ∈ moves → known artifact) :
    (machine.run moves).Vouches known := by
  induction moves generalizing machine with
  | nil => exact h
  | cons move moves ih =>
    obtain ⟨hharmless, halone⟩ := halone
    have hmove := h.after hharmless fun number artifact heq =>
      hknown number artifact (heq ▸ List.mem_cons_self)
    exact ih hmove halone fun number artifact hmem =>
      hknown number artifact (List.mem_cons_of_mem move hmem)

/-- **Whatever sessions write passes the check.** On a machine without sessions, whose files are no
    containers and whose processes have interned only text, let anything happen while nobody else
    brings a container and only text is interned. Then every file is no container, or passes the
    check; and where closing a session answers a path, the file there is a container, the check of
    it says that it is in order, and at each of its entries an artifact is found that was stored, by
    its name and with its sections. -/
theorem written_verifies {machine : Machine} {moves : List Move} (hsessions : machine.sessions = [])
    (hfiles : machine.files.Holds Container.Refused)
    (htexts : ∀ process ∈ machine.processes, process.symbols.Textual)
    (halone : machine.Undisturbed moves) :
    (∀ place bytes, (place, Node.file bytes) ∈ (machine.run moves).files.nodes →
      Container.Refused bytes ∨
        Container.Vouched (fun artifact => ∃ number, Move.call number (.store artifact) ∈ moves)
          bytes) ∧
    ∀ number now path final, close number now (machine.run moves) = .ok (some path) final →
      ∃ image container entries, final.files.map path = .ok image ∧
        CommandLine.Passes image container entries ∧
        (∀ host shown, host.read shown = .ok image →
          CommandLine.verify host shown = .success s!"ok {shown} ({entries.length} entries)\n") ∧
        ∀ entry ∈ entries, ∃ payload number artifact, container.payload entry = .ok payload ∧
          Move.call number (.store artifact) ∈ moves ∧ artifact.Found payload entry := by
  have hstart : machine.Vouches fun artifact => ∃ number,
      Move.call number (.store artifact) ∈ moves := by
    refine ⟨fun place bytes hmem => .inl (hfiles place bytes hmem), fun number opened hmem => ?_,
      htexts⟩
    rw [hsessions] at hmem
    cases hmem
  have hall := hstart.run halone fun number artifact hmem => ⟨number, hmem⟩
  refine ⟨hall.files, fun number now path final hclose => ?_⟩
  obtain ⟨process, opened, closing, hfind, hclosing, hfinal⟩ := close_ok hclose
  obtain ⟨arena, merged, image, hfinalizes, -, hbuild, hmap⟩ := build_of_close hclosing
  obtain ⟨container, entries, hpasses, hfinds⟩ := (hall.allEntries.session hfind).vouched
    (open_of_close hclosing) hfinalizes (hall.textual hfind) hbuild
  refine ⟨image, container, entries,
    by rw [hfinal, hmap], hpasses, fun host shown hread => hpasses.verify hread,
    fun entry hmem => ?_⟩
  obtain ⟨payload, hpayload, artifact, ⟨number, hmem⟩, hfound⟩ := hfinds entry hmem
  exact ⟨payload, number, artifact, hpayload, hmem, hfound⟩

/-- A method is stored in a session, and another one that is started on the container takes it out
    of use. -/
def rewriting : List Move := restarting ++ [.call 1 (.invalidate (.loaded 0))]

theorem run_rewriting {image : Bytes} {session : Session}
    (h : written.finalBytes? [] 0 = some image)
    (hstart : Session.start (fileAtApp image) updating plain idle = .ok (session, idle)) :
    vacant.run rewriting = (((vacated image).setSymbols 0 idle).put 1 ⟨0, session⟩).put 1
      ⟨0, session.after idleProcess (.invalidate (.loaded 0))⟩ := by
  have hcall : (vacant.run restarting).inSession 1
      (fun process session => .ok () (session.after process (.invalidate (.loaded 0))))
        = .ok () ((vacant.run restarting).put 1
          ⟨0, session.after idleProcess (.invalidate (.loaded 0))⟩) := by
    have hfind : (vacant.run restarting).find? 1 = some (idleProcess, ⟨0, session⟩) := by
      rw [run_restarting h hstart]
      exact find?_put_self rfl
    exact inSession_of_ok hfind rfl
  rw [rewriting, Machine.run, List.foldl_append]
  show (vacant.run restarting).after (.call 1 (.invalidate (.loaded 0))) = _
  rw [Machine.after, hcall, stateOf_ok, run_restarting h hstart]

theorem written_verifies_rewriting :
    ∃ final image, close 1 0 (vacant.run rewriting) = .ok (some "app") final ∧
    final.files.map "app" = .ok image ∧
    CommandLine.verify ⟨fun _ => none, fun _ => .ok image, none⟩ "app" =
      .success "ok app (1 entries)\n" := by
  -- Both containers are built and read in one evaluation: their bytes are spelled out nowhere.
  have hcount : ((written.finalBytes? [] 0).bind fun image => (sessionOn? image).bind fun opened =>
      ((opened.after idleProcess (.invalidate (.loaded 0))).finalBytes? [] 0).bind fun image =>
        (Container.ofBytes image).toOption.bind fun container =>
          container.entries.toOption.map List.length)
      = some 1 := by decide +kernel
  obtain ⟨image, himage, hcount⟩ := Option.bind_eq_some_iff.1 hcount
  obtain ⟨opened, hopened, hcount⟩ := Option.bind_eq_some_iff.1 hcount
  obtain ⟨again, hagain, hcount⟩ := Option.bind_eq_some_iff.1 hcount
  obtain ⟨container, haccepted, hcount⟩ := Option.bind_eq_some_iff.1 hcount
  obtain ⟨entries, hentries, hlength⟩ := Option.map_eq_some_iff.1 hcount
  obtain ⟨hstart, hloaded⟩ := start_of_sessionOn? hopened
  have hsteps := steps_after idleProcess opened (.invalidate (.loaded 0))
  have hopen : (opened.after idleProcess (.invalidate (.loaded 0))).state ≠ .closed := by
    rw [hsteps.state, state_of_start hstart, hloaded]
    cases opened.arena.isSome <;> decide
  have hpath : (opened.after idleProcess (.invalidate (.loaded 0))).config.storePath =
      some "app" := by
    rw [hsteps.config, (opened_of_start hstart).config]
    rfl
  have hfind : (vacant.run rewriting).find? 1
      = some (idleProcess, ⟨0, opened.after idleProcess (.invalidate (.loaded 0))⟩) := by
    rw [run_rewriting himage hstart]
    exact find?_put_self rfl
  have hfiles : (vacant.run rewriting).files = fileAtApp image := by
    rw [run_rewriting himage hstart]
    rfl
  have hclose := close_of_ok hfind (by rw [hfiles]; exact close_at_app image hopen hpath hagain)
  have hrefused : vacant.files.Holds Container.Refused := fun _ _ hmem _ haccepted =>
    refused_vacant hmem haccepted
  have htexts : ∀ process ∈ vacant.processes, process.symbols.Textual := by
    intro process hmem
    obtain rfl : process = idleProcess := by simpa [vacant] using hmem
    exact fun text hmem => by cases hmem
  have halone : vacant.Undisturbed rewriting :=
    ⟨trivial, trivial, trivial, trivial, trivial, trivial⟩
  obtain ⟨-, hwrites⟩ := written_verifies rfl hrefused htexts halone
  obtain ⟨found, verified, read, hmap, hpasses, hverify, -⟩ := hwrites _ _ _ _ hclose
  have hsame : found = again := by
    have hput : (fileAtApp again).map "app" = .ok found := hmap
    exact Except.ok.inj (hput.symm.trans (map_fileAtApp again))
  subst hsame
  have hone : read.length = 1 := by
    cases hpasses.accepted.symm.trans (toOption_eq_some.1 haccepted)
    cases hpasses.tables.symm.trans (toOption_eq_some.1 hentries)
    exact hlength
  refine ⟨_, found, hclose, hmap, ?_⟩
  rw [hverify _ "app" rfl, hone]
  rfl

end Machine

end CodeVault
