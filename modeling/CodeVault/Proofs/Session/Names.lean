import CodeVault.Proofs.Session.Entries
import CodeVault.Proofs.Session.Lookup
import CodeVault.Proofs.Session.StringIds

/-!
# Whose code a look-up answers

A method is stored, and looked up, under a word that is computed from its name; the names themselves
are never compared.

* a property that lasts, and that all artifacts have which are stored, is one of all entries on a
  machine (`AllEntries.after`, `AllEntries.run`);
* **a look-up answers a method that was stored, under its own name, and the word of this name is the
  word of the name that was asked for** (`lookup_known`). It is the method that was asked for if no
  other method has its word;
* names may share a word, and then the one method is answered for the other (`lookup_takes_other`).
-/

namespace CodeVault

open Bytes Session

namespace Machine

/-! ## 1. All entries on a machine -/

variable {P : Bytes → Entry → Prop}

/-- All entries have the property, in sessions and in files. -/
structure AllEntries (P : Bytes → Entry → Prop) (machine : Machine) : Prop where
  files : machine.files.Holds (Container.AllEntries P)
  sessions : ∀ number opened, (number, opened) ∈ machine.sessions → opened.session.AllEntries P

section Steps

variable {machine : Machine} {number : Nat} {process : LiveProcess} {opened : OpenedSession}

theorem AllEntries.session (h : machine.AllEntries P)
    (hfind : machine.find? number = some (process, opened)) :
    opened.session.AllEntries P :=
  h.sessions number opened (mem_of_lookup (find?_eq_some.1 hfind).1)

theorem AllEntries.forget {files : FileStore} (h : machine.AllEntries P)
    (hfiles : files.Holds (Container.AllEntries P)) (number : Nat) :
    AllEntries P { machine.forget number with files } :=
  ⟨hfiles, fun other session hmem => h.sessions other session (List.mem_of_mem_filter hmem)⟩

theorem AllEntries.put {files : FileStore} (h : machine.AllEntries P)
    (hfiles : files.Holds (Container.AllEntries P)) (hopened : opened.session.AllEntries P)
    (number : Nat) :
    ({ machine with files }.put number opened).AllEntries P := by
  refine ⟨hfiles, fun other session hmem => ?_⟩
  rcases List.mem_cons.1 hmem with heq | hold
  · cases heq
    exact hopened
  · exact h.sessions other session (List.mem_of_mem_filter hold)

theorem preserves_closeSession (hlasting : Lasting P) (number : Nat) (now : UInt64) :
    Preserves (AllEntries P) (close number now) := by
  intro machine h
  cases hfind : machine.find? number with
  | none =>
    simp only [close, hfind]
    exact h
  | some found =>
    have hclosed :=
      preserves_close hlasting found.1.symbols now (s := ⟨found.2.session, machine.files⟩)
        ⟨h.session hfind, h.files⟩
    rw [Machine.stateOf_close hfind]
    exact h.put hclosed.files hclosed.session number

theorem preserves_dropSession (hlasting : Lasting P) (number : Nat) (now : UInt64) :
    Preserves (AllEntries P) (drop number now) := by
  intro machine h
  cases hfind : machine.find? number with
  | none =>
    simp only [drop, hfind]
    exact h
  | some found =>
    have hdropped :=
      preserves_drop hlasting found.1.symbols now (s := ⟨found.2.session, machine.files⟩)
        ⟨h.session hfind, h.files⟩
    rw [Machine.stateOf_drop hfind]
    exact h.forget hdropped.files number

theorem preserves_start (hlasting : Lasting P) (number place : Nat) (config : Config)
    (fingerprint : Fingerprint) (now : UInt64) :
    Preserves (AllEntries P) (start number place config fingerprint now) := by
  intro machine h
  have hdropped := preserves_dropSession hlasting number now h
  rcases stateOf_start machine number place config fingerprint now with
    hleft | ⟨starter, session, symbols, -, hstart, hleft⟩
  · rw [hleft]
    exact hdropped
  · rw [hleft]
    have hsymbols : ((stateOf (drop number now machine)).setSymbols place symbols).AllEntries P :=
      ⟨hdropped.files, hdropped.sessions⟩
    exact hsymbols.put hdropped.files (allEntries_start hdropped.files hstart) number

/-- What a move adds to a machine has the property: what is stored, and what somebody else puts in
    files. -/
def Move.Adds (P : Bytes → Entry → Prop) : Move → Prop
  | .files left => left.Holds (Container.AllEntries P)
  | .call _ (.store artifact) => ∀ process, Deposits P process artifact
  | _ => True

theorem preserves_call (hlasting : Lasting P) (number : Nat) {call : Call}
    (hadds : (Move.call number call).Adds P) :
    Preserves (AllEntries P)
      (inSession number fun process session => .ok () (session.after process call)) := by
  intro machine h
  unfold inSession
  split
  · exact h
  · rename_i process opened hfind
    refine h.put h.files ((h.session hfind).after hlasting fun artifact hcall => ?_) number
    subst hcall
    exact hadds process

/-- **One more move leaves all entries with the property**, if what it adds has it. -/
theorem AllEntries.after (h : machine.AllEntries P) (hlasting : Lasting P) {move : Move}
    (hadds : move.Adds P) :
    (machine.after move).AllEntries P := by
  cases move with
  | files files => exact ⟨hadds, h.sessions⟩
  | symbols place event =>
    simp only [Machine.after]
    split
    · exact ⟨h.files, h.sessions⟩
    · exact h
  | start number place config fingerprint now =>
    exact preserves_start hlasting number place config fingerprint now h
  | call number call => exact preserves_call hlasting number hadds h
  | close number now => exact preserves_closeSession hlasting number now h
  | drop number now => exact preserves_dropSession hlasting number now h

/-- **Whatever happens on a machine, all entries have a property that all artifacts have which are
    stored.** -/
theorem AllEntries.run {moves : List Move} (h : machine.AllEntries P) (hlasting : Lasting P)
    (hadds : ∀ move ∈ moves, move.Adds P) : (machine.run moves).AllEntries P := by
  induction moves generalizing machine with
  | nil => exact h
  | cons move moves ih =>
    obtain ⟨hmove, hmoves⟩ := List.forall_mem_cons.1 hadds
    exact ih (h.after hlasting hmove) hmoves

end Steps

/-! ## 2. Names -/

/-- The payload of an entry bears the name of a known artifact of the entry's kind, id and level. -/
def Names (known : Artifact → Prop) (payload : Bytes) (entry : Entry) : Prop :=
  ∃ artifact, known artifact ∧ entry.kind = artifact.kind ∧ entry.id = artifact.id ∧
    entry.level = artifact.compile.level ∧ Payload.peekName payload entry = .ok artifact.name

variable {known : Artifact → Prop}

theorem lasting_names : Lasting (Names known) := by
  rintro bytes entry other halike ⟨artifact, hknown, hkind, hid, hlevel, hname⟩
  rw [halike]
  exact ⟨artifact, hknown, hkind, hid, hlevel, hname⟩

theorem deposits_names {process : LiveProcess} {artifact : Artifact} (h : known artifact) :
    Deposits (Names known) process artifact := by
  intro offline arena after layout payload hstored
  obtain ⟨encoded, hencodes, rfl⟩ := hstored.encodes
  exact ⟨artifact, h, rfl, rfl, rfl, Context.peekName_of_encodes hencodes hstored.describes offline⟩

/-- Only known artifacts are stored, and somebody else puts only such files in place in which all
    entries bear the names of known artifacts. -/
def Move.Stores (known : Artifact → Prop) : Move → Prop
  | .files left => left.Holds (Container.AllEntries (Names known))
  | .call _ (.store artifact) => known artifact
  | _ => True

theorem Move.Stores.adds {move : Move} (h : move.Stores known) : move.Adds (Names known) := by
  cases move with
  | files left => exact h
  | call number call =>
    cases call with
    | store artifact => exact fun process => deposits_names h
    | find | load | lookup | preloadEntries | invalidate => trivial
  | symbols | start | close | drop => trivial

/-- A method has the word of its name. -/
theorem id_method (name : String) (level : UInt8) (decompile : UInt32) :
    (Artifact.method name level decompile).id =
      contentId (Artifact.method name level decompile).name :=
  rfl

/-- An entry that answers a query for a method is one of compiled code, with the word and the
    level. -/
theorem of_answers_code {entry : Entry} {id : UInt32} {level : UInt8} {decompile : UInt32}
    (h : entry.answers ⟨.code, id, level, decompile⟩ = true) :
    entry.kind = .code ∧ entry.id = id ∧ entry.level = level := by
  simp only [Entry.answers, bne_self_eq_false, Bool.false_or, Bool.and_eq_true, beq_iff_eq] at h
  obtain ⟨⟨⟨hkind, hid⟩, -⟩, ⟨-, hlevel⟩, -⟩ := h
  exact ⟨hkind, hid, hlevel⟩

/-- **A look-up answers a method that was stored, under its own name, and with the word of the name
    that was asked for.** Here `key` is any way to compute words from names. On a machine without
    sessions, whose files are no containers or hold known artifacts only, let anything happen in
    which only known artifacts are stored: if then an artifact is answered for the word of a name,
    it bears the name of a known method, of the level asked for, with the same word. So it is the
    method asked for, unless another one that is known has this word. -/
theorem lookup_known {key : String → UInt32} {machine after : Machine} {moves : List Move}
    {number : Nat} {name : String} {level : UInt8} {decompile : UInt32} {artifact : Artifact}
    (hkeys : ∀ method, known method → method.kind = .code → method.id = key method.name)
    (hsessions : machine.sessions = [])
    (hfiles : machine.files.Holds (Container.AllEntries (Names known)))
    (hstores : ∀ move ∈ moves, move.Stores known)
    (hlookup : (machine.run moves).inSession number
        (fun process => Session.lookup process ⟨.code, key name, level, decompile⟩)
      = .ok (some artifact) after) :
    (∃ method, known method ∧ method.kind = .code ∧ method.compile.level = level ∧
        key method.name = key name ∧ artifact.name = method.name) ∧
      ((∀ method, known method → method.kind = .code → key method.name = key name →
          method.name = name) →
        artifact.name = name) := by
  have hstart : machine.AllEntries (Names known) :=
    ⟨hfiles, fun _ _ hmem => by rw [hsessions] at hmem; cases hmem⟩
  have hall := hstart.run lasting_names fun move hmem => (hstores move hmem).adds
  obtain ⟨process, opened, last, hfind, hrun, -⟩ := inSession_ok hlookup
  obtain ⟨i, entry, bytes, hentry, hanswers, hbytes, hread⟩ := lookup_ok hrun
  have hsession := hall.session hfind
  -- A session that is closed has no container, so the entry was found in one that is open.
  have hopen : opened.session.state ≠ .closed := by
    intro hclosed
    obtain ⟨container, hcontainer, -⟩ := payload?_loaded.1 hbytes
    cases (hsession.closed hclosed).symm.trans hcontainer
  obtain ⟨payload, hpayload, method, hknown, hkind, hid, hlevel, hname⟩ :=
    hsession.entries hopen hentry
  cases hbytes.symm.trans hpayload
  obtain ⟨hcode, hword, hsame⟩ := of_answers_code hanswers
  have hmethod : method.kind = .code := hkind.symm.trans hcode
  have hkey : key method.name = key name := by rw [← hkeys method hknown hmethod, ← hid, hword]
  have hcalled : artifact.name = method.name := by
    have hfound : Except.ok artifact.name = Except.ok method.name :=
      (Context.readArtifact_ok hread).1.symm.trans hname
    exact Except.ok.inj hfound
  refine ⟨⟨method, hknown, hmethod, hlevel.symm.trans hsame, hkey, hcalled⟩, fun honly => ?_⟩
  rw [hcalled]
  exact honly method hknown hmethod hkey

/-! ## 3. Two names with one word

An example: a session stores a method, and another one is started on the container that it
leaves. -/

theorem contentId_beo : contentId "beo" = 2118147369 := by decide +kernel

theorem contentId_ewpk : contentId "ewpk" = 2118147369 := by decide +kernel

/-- A method with nothing in it, with its word worked out. -/
def beo : Artifact := { Artifact.method "beo" 0 0 with id := 2118147369 }

theorem beo_eq : beo = Artifact.method "beo" 0 0 := by
  rw [Artifact.method, contentId_beo]
  rfl

/-- A process that has not interned anything. -/
def idleProcess : LiveProcess := { Context.internedOnce with symbols := idle }

/-- A machine with that process, whose file at `app` is empty. -/
def vacant : Machine := ⟨fileAtApp #[], #[idleProcess], []⟩

/-- The file is no container. -/
theorem refused_vacant {place : List String} {bytes : Bytes} {container : Container}
    (h : (place, Node.file bytes) ∈ vacant.files.nodes) :
    Container.ofBytes bytes ≠ .ok container := by
  obtain ⟨-, rfl⟩ : place = ["app"] ∧ bytes = #[] := by simpa [vacant, fileAtApp] using h
  have hrefused : Container.ofBytes #[] = .error (.sizeMismatch 96 0) := by decide
  intro haccepted
  cases hrefused.symm.trans haccepted

/-- The method is stored in a session, and then another session is started. -/
def restarting : List Move :=
  [.start 0 0 storing plain 0, .call 0 (.store beo), .close 0 0, .start 1 0 updating plain 0]

/-- The name of what a session answers that was started on a container without strings. -/
def nameAnswered? (query : Query) (image : Bytes) : Option String := do
  let container ← (Container.ofBytes image).toOption
  let _ ← (plain.verify container.header.fingerprint).toOption
  let index ← container.loadIndex.toOption
  let [] ← container.strings.toOption | none
  let .ok (some artifact) _ :=
    Session.lookup idleProcess query { updated with container := some container, index } | none
  return artifact.name

/-- What the session answers that is started on a container. -/
theorem lookup_of_nameAnswered? {query : Query} {image : Bytes} {name : String}
    (h : nameAnswered? query image = some name) :
    ∃ session artifact last, Session.start (fileAtApp image) updating plain idle =
      .ok (session, idle) ∧
      Session.lookup idleProcess query session = .ok (some artifact) last ∧
        artifact.name = name := by
  obtain ⟨container, haccepted, h⟩ := Option.bind_eq_some_iff.1 h
  obtain ⟨_, hverified, h⟩ := Option.bind_eq_some_iff.1 h
  obtain ⟨index, hindex, h⟩ := Option.bind_eq_some_iff.1 h
  obtain ⟨strings, hstrings, h⟩ := Option.bind_eq_some_iff.1 h
  split at h
  · split at h
    · rename_i artifact last hlookup
      have hcalled : artifact.name = name := Option.some.inj h
      obtain ⟨header, hheader, hdone⟩ := except_bind_eq_ok.1 (toOption_eq_some.1 haccepted)
      cases hdone
      exact ⟨_, artifact, last, start_at_app ⟨image, header⟩ hheader (toOption_eq_some.1 hverified)
        (toOption_eq_some.1 hindex) (toOption_eq_some.1 hstrings), hlookup, hcalled⟩
    · cases h
  · cases h

/-- A session that has stored the method. -/
def written : Session := writing.after idleProcess (.store beo)

theorem close_written {image : Bytes} (h : written.finalBytes? [] 0 = some image) :
    Session.close idle 0 ⟨written, fileAtApp #[]⟩ = .ok (some "app")
      ⟨{ written with container := none, arena := none, state := .closed }, fileAtApp image⟩ := by
  have hsteps := steps_after idleProcess writing (.store beo)
  have hopen : written.state ≠ .closed := by
    rw [written, hsteps.state]
    decide
  have hpath : written.config.storePath = some "app" := by
    rw [written, hsteps.config]
    rfl
  exact close_at_app #[] hopen hpath h

/-- The machine when that session was closed. -/
def vacated (image : Bytes) : Machine :=
  { vacant with files := fileAtApp image }.put 0
    ⟨0, { written with container := none, arena := none, state := .closed }⟩

theorem run_written {image : Bytes} (h : written.finalBytes? [] 0 = some image) :
    vacant.run [.start 0 0 storing plain 0, .call 0 (.store beo), .close 0 0] = vacated image := by
  have hwritten : vacant.run [.start 0 0 storing plain 0, .call 0 (.store beo)]
      = vacant.put 0 ⟨0, written⟩ := rfl
  have hfind : (vacant.put 0 ⟨0, written⟩).find? 0 = some (idleProcess, ⟨0, written⟩) := rfl
  have hclosed : close 0 0 (vacant.put 0 ⟨0, written⟩) = .ok (some "app") (vacated image) :=
    close_of_ok hfind (close_written h)
  show (vacant.run [.start 0 0 storing plain 0, .call 0 (.store beo)]).after (.close 0 0) = _
  rw [hwritten, Machine.after, hclosed, stateOf_ok]

/-- The machine when the other session was started on the container. -/
theorem run_restarting {image : Bytes} {session : Session}
    (h : written.finalBytes? [] 0 = some image)
    (hstart : Session.start (fileAtApp image) updating plain idle = .ok (session, idle)) :
    vacant.run restarting = ((vacated image).setSymbols 0 idle).put 1 ⟨0, session⟩ := by
  have hstarted : start 1 0 updating plain 0 (vacated image)
      = .ok (some session) (((vacated image).setSymbols 0 idle).put 1 ⟨0, session⟩) :=
    start_of_ok 0 rfl rfl hstart
  show (vacant.run [.start 0 0 storing plain 0, .call 0 (.store beo), .close 0 0]).after
    (.start 1 0 updating plain 0) = _
  rw [run_written h, Machine.after, hstarted, stateOf_ok]

/-- The session that is started on the container answers the stored method for its word. -/
theorem lookup_restarting : ∃ artifact after,
    (vacant.run restarting).inSession 1
      (fun process => Session.lookup process ⟨.code, 2118147369, 0, 0⟩)
      = .ok (some artifact) after ∧ artifact.name = "beo" := by
  -- The container is built, read and searched in one evaluation: its bytes are spelled out nowhere.
  have hname : (written.finalBytes? [] 0).bind (nameAnswered? ⟨.code, 2118147369, 0, 0⟩) =
      some "beo" := by
    decide +kernel
  obtain ⟨image, himage, hanswered⟩ := Option.bind_eq_some_iff.1 hname
  obtain ⟨session, artifact, last, hstart, hlookup, hcalled⟩ := lookup_of_nameAnswered? hanswered
  rw [run_restarting himage hstart]
  exact ⟨artifact, _, inSession_of_ok (find?_put_self rfl) hlookup, hcalled⟩

theorem stores_restarting : ∀ move ∈ restarting, move.Stores (· = Artifact.method "beo" 0 0) := by
  simp [restarting, Move.Stores, beo_eq]

theorem lookup_known_beo : ∃ artifact after,
    (vacant.run restarting).inSession 1
        (fun process => Session.lookup process ⟨.code, contentId "beo", 0, 0⟩)
      = .ok (some artifact) after ∧ artifact.name = "beo" := by
  obtain ⟨artifact, after, hlookup, -⟩ := lookup_restarting
  rw [← contentId_beo] at hlookup
  have hfiles : vacant.files.Holds
      (Container.AllEntries (Names (· = Artifact.method "beo" 0 0))) := by
    intro place bytes hmem container entries haccepted
    exact absurd haccepted (refused_vacant hmem)
  have hkeys : ∀ method, method = Artifact.method "beo" 0 0 → method.kind = .code →
      method.id = contentId method.name := by
    rintro method rfl -
    exact id_method "beo" 0 0
  refine ⟨artifact, after, hlookup, (lookup_known hkeys rfl hfiles stores_restarting hlookup).2 ?_⟩
  rintro method rfl - -
  rfl

/-- The names `beo` and `ewpk` have the same word: a process that asks for the one gets the
    other. -/
theorem lookup_takes_other : ∃ artifact after,
    (∀ move ∈ restarting, move.Stores (· = Artifact.method "beo" 0 0)) ∧
      (vacant.run restarting).inSession 1
          (fun process => Session.lookup process ⟨.code, contentId "ewpk", 0, 0⟩)
        = .ok (some artifact) after ∧
      artifact.name ≠ "ewpk" := by
  obtain ⟨artifact, after, hlookup, hcalled⟩ := lookup_restarting
  rw [← contentId_ewpk] at hlookup
  refine ⟨artifact, after, stores_restarting, hlookup, ?_⟩
  rw [hcalled]
  decide

end Machine

end CodeVault
