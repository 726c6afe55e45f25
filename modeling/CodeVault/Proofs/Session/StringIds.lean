import CodeVault.Proofs.Session.Contents
import CodeVault.Proofs.Session.Machine

/-!
# What the ids of strings in stored code denote

Code that points at an interned string is stored with the id that the string has then; the strings
themselves are written when the session is closed.

* an auxiliary word that is the id of a string was written for a target that the string was known by
  (`indexOfAddress?_of_namesString`);
* **in the container that is written the id denotes the same string exactly when the lists that were
  loaded in between leave it there** (`stored_string_kept_iff`). Another session of the process may
  have loaded one that does not.
-/

namespace CodeVault

open Bytes Session

/-! ## 1. Ids in a payload -/

/-- The string that an address stands for. -/
def StringTable.stringAt? (table : StringTable) (addr : Address) : Option CText :=
  (table.indexOfAddress? addr).bind table.text?

/-- A relocation of a section for which the id of a string was written, and its target. -/
def Encoded.NamesString (encoded : Encoded) (artifact : Artifact) (kind : SectionKind)
    (target : Address) (index : Nat) : Prop :=
  ∃ (n : Nat) (relocation : Relocation) (constant : Option Reference),
    (artifact.sections.get kind).relocations[n]? = some relocation ∧
    relocation.kind.operand = .target ∧ relocation.value = .address target ∧
    (encoded.auxiliaries.get kind)[n]? = some (UInt32.ofNat (stringBase + index), constant) ∧
    index < maxStrings

namespace Context

variable {context : Context} {artifact : Artifact} {encoded : Encoded}

theorem symbolOf_of_symbolWord {target : Address} {word : UInt32}
    (h : context.symbolWord target = .ok word) :
    ∃ symbol, context.process.symbols.symbolOf target = .ok symbol ∧ word.toNat = symbol.toNat := by
  obtain ⟨symbol, hsymbol, hraw⟩ := symbolWord_eq_ok.1 h
  exact ⟨symbol, hsymbol, SymbolTable.toRaw?_eq_some hraw⟩

/-- A word that is not the marker is the word of the target's symbol. -/
theorem symbolWord_of_targetWord {origin target : Address} {relocation : Relocation} {word : UInt32}
    (hword : word ≠ relocationMarker) (h : context.targetWord origin relocation target = .ok word) :
    context.symbolWord target = .ok word := by
  rcases targetWord_eq_ok.1 h with ⟨-, -, hmarker⟩ | ⟨-, hsymbol⟩
  · exact absurd hmarker hword
  · exact hsymbol

/-- **The id of a string was written for a target that the string was known by.** -/
theorem indexOfAddress?_of_namesString {kind : SectionKind} {target : Address} {index : Nat}
    (hsound : context.process.symbols.Sound) (hencodes : context.Encodes artifact encoded)
    (h : encoded.NamesString artifact kind target index) :
    context.process.symbols.strings.indexOfAddress? target = some index := by
  obtain ⟨n, relocation, constant, hrelocation, hoperand, hvalue, hword, hindex⟩ := h
  obtain ⟨written, hwritten, hauxiliary⟩ :=
    exists_getElem?_of_forall₂ (hencodes.relocations kind).codes hrelocation
  cases hword.symm.trans hwritten
  simp only [auxiliary, hoperand, hvalue] at hauxiliary
  obtain ⟨word, htarget, hpair⟩ := except_map_eq_ok.1 hauxiliary
  cases hpair
  have hnum : (UInt32.ofNat (stringBase + index)).toNat = stringBase + index := by
    refine toNat_ofNat_of_lt_wordSpace ?_
    have : stringBase + maxStrings < wordSpace := by decide
    omega
  have hmarker : UInt32.ofNat (stringBase + index) ≠ relocationMarker := by
    refine ne_marker ?_
    have : stringBase + maxStrings < wordSpace - 1 := by decide
    omega
  obtain ⟨symbol, hsymbol, hsame⟩ :=
    symbolOf_of_symbolWord (symbolWord_of_targetWord hmarker htarget)
  exact SymbolTable.indexOfAddress?_of_symbolOf hsound hsymbol (hsame.symm.trans hnum) hindex

end Context

/-! ## 2. From storing to closing -/

/-- **What the ids of strings in a stored artifact denote in the end.** Of any run of a machine in
    which a session is started, stores an artifact and writes a container when it is closed, with
    anything else before, between and after: where the id of a string was written into the payload,
    it denotes in the strings of the container what the target stood for exactly when the lists that
    were loaded in the process since then leave the string there. -/
theorem stored_string_kept_iff {before machine stored final : Machine} {number place : Nat}
    {config : Config} {fingerprint : Fingerprint} {opening now : UInt64} {opened : Session}
    {earlier later : List Machine.Move} {artifact : Artifact} {id : EntryId} {path : String}
    (hreached : ∀ process, before.processes[place]? = some process → process.symbols.Reached)
    (hstart : Machine.start number place config fingerprint opening before =
      .ok (some opened) machine)
    (hearlier : ∀ move ∈ earlier, move.Spares number)
    (hstore : (machine.run earlier).inSession number (store · artifact) = .ok id stored)
    (hlater : ∀ move ∈ later, move.Spares number)
    (hclose : Machine.close number now (stored.run later) = .ok (some path) final) :
    ∃ writer writing closer closing entry encoded image header strings,
      (machine.run earlier).find? number = some (writer, writing) ∧
      (stored.run later).find? number = some (closer, closing) ∧
      closing.session.entry? id = some entry ∧
      closing.session.payload? id entry = some (artifact.payload encoded) ∧
      Context.Encodes ⟨writer, artifact.compile.forPreload⟩ artifact encoded ∧
      final.files.map path = .ok image ∧
      (∀ container, Container.ofBytes image = .ok container → container = ⟨image, header⟩) ∧
      Container.rawStrings ⟨image, header⟩ = .ok strings ∧
      ∀ kind target index, encoded.NamesString artifact kind target index →
        (strings[index]? = writer.symbols.strings.stringAt? target ↔
          writer.symbols.strings.KeptBy (stored.loads place later) index) := by
  obtain ⟨files, starter, symbols, hstarter, hopening, hfind⟩ := Machine.start_ok hstart
  obtain ⟨loading, rfl, -⟩ := Machine.symbols_of_start hopening
  change machine.find? number = some (_, ⟨place, (History.start opened).session⟩) at hfind
  obtain ⟨events, calls, hbefore, -⟩ := Machine.follows_run hearlier hfind
  obtain ⟨writer, writing, last, hwriter, hrun, rfl⟩ := Machine.inSession_ok hstore
  cases hbefore.symm.trans hwriter
  have hsound := ((hreached starter hstarter).sound.after loading).after events
  have hfaithful := (opened_of_start hopening).faithful calls
  -- The store is a step of the history, which the rest of the run follows.
  obtain ⟨events', calls', hlast, hloads⟩ := Machine.follows_run hlater
    (Machine.find?_put_store (Machine.find?_eq_some.1 hwriter).2 hrun)
  obtain ⟨closer, closing, after, hcloser, hclosed, hfiles⟩ := Machine.close_ok hclose
  cases hlast.symm.trans hcloser
  obtain ⟨encoded, hencodes, now, hnow, hpayload⟩ := hfaithful.payload?_stored hrun calls'
  obtain ⟨arena, merged, image, header, entries, hwritten⟩ := written_of_close hclosed
  refine ⟨_, _, _, _, now, encoded, image, header, _, hwriter, hcloser, hnow, hpayload, hencodes,
    hfiles ▸ hwritten.file, fun container => hwritten.laid.eq_of_ofBytes,
    hwritten.laid.rawStrings_ok, fun kind target index hnames => ?_⟩
  have hindex := Context.indexOfAddress?_of_namesString hsound hencodes hnames
  have hlt := StringTable.lt_size_of_indexOfAddress? hindex
  have hiff := SymbolTable.text?_after_iff hsound events' hlt
  rw [hloads] at hiff
  rw [← hiff, ← StringTable.text?_eq, StringTable.stringAt?, hindex, Option.bind_some]

/-! An example: a stub that points at the only interned string is stored, and then another list is
loaded. -/

/-- A policy that writes a container at `app`. -/
def storing : Config := ⟨none, some "app", false, 1024, false, true⟩

/-- A session that was started by it. -/
def writing : Session :=
  { unopened storing plain with
    arena := some (.ofCapacity 1024)
    state := .openForWrite }

/-- A machine with a process that has interned one string. -/
def sharing : Machine := ⟨fileAtApp #[], #[Context.internedOnce], []⟩

/-- A list with another string is loaded. -/
def loading : List Machine.Move := [.symbols 0 (.loaded [⟨#[104, 111], by simp⟩])]

/-- The machine when the session was started. -/
def started : Machine := stateOf (Machine.start 0 0 storing plain 0 sharing)

theorem store_writing :
    store Context.internedOnce Context.selfCallingStub writing
      = .ok (.stored 0) (writing.after Context.internedOnce (.store Context.selfCallingStub)) :=
  store_of_deposited? (by decide +kernel)

/-- The machine when the stub was stored. -/
def deposited : Machine :=
  started.put 0 ⟨0, writing.after Context.internedOnce (.store Context.selfCallingStub)⟩

theorem close_loading :
    ∃ final, Machine.close 0 0 (deposited.run loading) = .ok (some "app") final := by
  have hfinal : (writing.after Context.internedOnce (.store Context.selfCallingStub)).finalBytes?
      (Context.internedOnce.symbols.apply (.loaded [⟨#[104, 111], by simp⟩])).strings.texts 0 ≠
        none := by
    decide +kernel
  obtain ⟨image, himage⟩ := Option.ne_none_iff_exists'.1 hfinal
  have hpath : (writing.after Context.internedOnce
      (.store Context.selfCallingStub)).config.storePath
      = some "app" := by
    rw [(steps_after _ _ _).config]
    rfl
  have hclose := close_at_app #[] (by decide +kernel) hpath himage
  have hfind : (deposited.run loading).find? 0 = some
      ({ Context.internedOnce with
          symbols := Context.internedOnce.symbols.apply (.loaded [⟨#[104, 111], by simp⟩]) },
        ⟨0, writing.after Context.internedOnce (.store Context.selfCallingStub)⟩) := rfl
  exact ⟨_, Machine.close_of_ok hfind hclose⟩

theorem stored_string_kept_iff_loading :
    ∃ (final : Machine) (encoded : Encoded) (image : Bytes) (header : Header)
      (strings : List CText),
      Machine.start 0 0 storing plain 0 sharing = .ok (some writing) started ∧
      started.inSession 0 (store · Context.selfCallingStub) = .ok (.stored 0) deposited ∧
      Machine.close 0 0 (deposited.run loading) = .ok (some "app") final ∧
      final.files.map "app" = .ok image ∧ Container.rawStrings ⟨image, header⟩ = .ok strings ∧
      encoded.NamesString Context.selfCallingStub .insts 20480 0 ∧
      Context.internedOnce.symbols.strings.stringAt? 20480 = some ⟨#[104, 105], by simp⟩ ∧
      strings[0]? ≠ some ⟨#[104, 105], by simp⟩ := by
  have hstart : Machine.start 0 0 storing plain 0 sharing = .ok (some writing) started := rfl
  have hfind : started.find? 0 = some (Context.internedOnce, ⟨0, writing⟩) := rfl
  have hstore : (started.run []).inSession 0 (store · Context.selfCallingStub)
      = .ok (.stored 0) deposited := by
    simp only [Machine.inSession, Machine.run, List.foldl_nil, hfind, store_writing]
    rfl
  obtain ⟨final, hclose⟩ := close_loading
  have hreached : ∀ process, sharing.processes[0]? = some process → process.symbols.Reached := by
    rintro process hprocess
    cases hprocess
    exact ⟨_, _, _, rfl⟩
  have hspares : ∀ move ∈ loading, move.Spares 0 := by simp [loading, Machine.Move.Spares]
  obtain ⟨writer, there, -, -, -, encoded, image, header, strings, hwriter, -, -, -,
    hencodes, hfile, -, hstrings, hkept⟩ :=
      stored_string_kept_iff hreached hstart (by simp) hstore hspares hclose
  cases hfind.symm.trans hwriter
  -- The second relocation of the stub points at the string, which has the first id.
  obtain ⟨⟨word, constant⟩, hwritten, hauxiliary⟩ :=
    exists_getElem?_of_forall₂ (i := 1) (hencodes.relocations .insts).codes rfl
  have hword : Context.auxiliary ⟨Context.internedOnce, Context.selfCallingStub.compile.forPreload⟩
      8192 1 ⟨.externalWord, 8, 0, .address 20480⟩ = .ok (UInt32.ofNat stringBase, none) := by
    decide +kernel
  cases hword.symm.trans hauxiliary
  have hnames : encoded.NamesString Context.selfCallingStub .insts 20480 0 :=
    ⟨1, _, none, rfl, rfl, rfl, hwritten, by decide⟩
  have hmine : Context.internedOnce.symbols.strings.stringAt? 20480 =
      some ⟨#[104, 105], by simp⟩ := by
    decide +kernel
  refine ⟨final, encoded, image, header, strings, hstart, hstore, hclose, hfile, hstrings,
    hnames, hmine, fun hsame => ?_⟩
  obtain ⟨hreach, -⟩ := (hkept .insts 20480 0 hnames).1 (hsame.trans hmine.symm)
  have hother := hreach [⟨#[104, 111], by simp⟩] (by decide +kernel) (by decide)
  exact absurd hother (by decide +kernel)

end CodeVault
