import CodeVault.Proofs.Artifact.Carried
import CodeVault.Proofs.Context.Shared
import CodeVault.Proofs.Cursor.Safe

/-!
# Reading whatever bytes there are

Payloads and entries come from files; nothing is known of them.

* a process is `Roomy` if its anchor and its base image are low enough for every distance that fits
  a word;
* **in a roomy process, whatever bytes are read with whatever entry are refused with an error or
  give an artifact that is well-formed** (`Artifact.WellFormed`, `readArtifact_safe`).
-/

namespace CodeVault

open Arena Bytes Cursor

variable {α β : Type}

/-! ## 1. Processes with room for every distance -/

/-- The anchor and the base image of a process leave room for every distance that fits a word. -/
structure LiveProcess.Roomy (process : LiveProcess) : Prop where
  anchor : process.symbols.anchor.start.toNat ≤ addressSpace - wordSpace
  image : process.image.origin.toNat ≤ addressSpace - wordSpace

theorem Address.after?_isSome {start : Address} {distance : Nat}
    (hstart : start.toNat ≤ addressSpace - wordSpace) (hdistance : distance < wordSpace) :
    ∃ addr, start.after? distance = some addr := by
  have hlt : start.toNat + distance < addressSpace := by
    simp only [addressSpace, wordSpace] at hstart hdistance ⊢
    omega
  exact ⟨_, if_pos hlt⟩

namespace SymbolTable

/-- **The symbol of a word stands for an address, or is refused.** -/
theorem isError_of_addressOf {table : SymbolTable}
    (hstart : table.anchor.start.toNat ≤ addressSpace - wordSpace) {word : UInt32}
    {fault : Fault SymbolError} (h : table.addressOf (Symbol.ofRaw word) = .error fault) :
    fault.IsError := by
  unfold Symbol.ofRaw at h
  split at h
  · obtain ⟨addr, haddr⟩ := Address.after?_isSome hstart
      (Nat.lt_of_le_of_lt (Nat.sub_le word.toNat anchorBase) word.toNat_lt)
    simp only [addressOf, haddr] at h
    cases h
  · rename_i hlow
    simp only [addressOf, if_neg hlow] at h
    split at h
    · split at h <;> cases h
      exact ⟨_, rfl⟩
    · exact isError_of_liftError h

end SymbolTable

namespace Context

variable {context : Context}

/-- **A reference stands for a value, or is refused.** -/
theorem isError_of_decodeValue (hroomy : context.process.Roomy) {reference : Reference}
    {fault : Fault LookupFailure} (h : context.decodeValue reference = .error fault) :
    fault.IsError := by
  refine isError_of_inRange (fun _ distance _ _ => ?_) h
  obtain ⟨addr, haddr⟩ := Address.after?_isSome hroomy.image distance.toNat_lt
  exact Address.after?_eq_some.1 haddr ▸ addr.toNat_lt

/-! ## 2. Well-formed artifacts -/

end Context

/-- A value that a relocation with such an operand may have, in an artifact with so many constants
    in its table. -/
inductive Operand.Admits (referenceCount : Nat) : Operand → RelocationValue → Prop
  | nothing : Admits referenceCount .nothing .none
  | address (target : Address) : Admits referenceCount .target (.address target)
  | selfReference : Admits referenceCount .target .selfReference
  | immediate (value : EmbeddedValue) : Admits referenceCount .constant (.immediate value)
  | recorded (index : UInt32) (h : index.toNat < referenceCount) : Admits referenceCount .constant
      (.recorded index)
  | internal (offset : UInt32) : Admits referenceCount .internal (.internal offset)

/-- A relocation lies in its section, and its value is one that its kind may have. -/
structure Relocation.WellFormed (sectionSize referenceCount : Nat)
    (relocation : Relocation) : Prop where
  inside : relocation.offset.toNat < max 1 sectionSize
  admitted : relocation.kind.operand.Admits referenceCount relocation.value

/-- An artifact agrees with an entry, and all its relocations are in place. -/
structure Artifact.WellFormed (entry : Entry) (artifact : Artifact) : Prop where
  noNul : (0 : UInt8) ∉ ofString artifact.name
  nameSize : (ofString artifact.name).size + 1 = entry.nameSize.toNat
  kinds : ∀ kind, (artifact.sections.get kind).kind = kind
  codeSize : artifact.codeSize = entry.codeSize.toNat
  relocations : ∀ kind, ∀ relocation ∈ (artifact.sections.get kind).relocations,
    relocation.WellFormed (artifact.sections.get kind).bytes.size artifact.references.length
  dependencies : entry.kind ≠ .code → artifact.dependencies = #[]

namespace Context

variable {context : Context}

theorem safe_readValue (hroomy : context.process.Roomy) :
    Safe (fun _ => True) context.readValue := by
  refine Safe.lift_bind fun reference => ?_
  cases hvalue : context.decodeValue reference with
  | ok value => exact safe_pure trivial
  | error fault => exact safe_throw ((isError_of_decodeValue hroomy hvalue).map _)

/-- **A relocation is bound to a value that its kind may have.** -/
theorem safe_bindValue (hroomy : context.process.Roomy) (referenceCount : Nat)
    (kind : RelocationKind) (word : UInt32) :
    Safe (kind.operand.Admits referenceCount) (context.bindValue referenceCount kind word) := by
  unfold bindValue
  cases hoperand : kind.operand with
  | nothing => exact safe_pure .nothing
  | internal => exact safe_pure (.internal word)
  | target =>
    refine safe_ite (fun _ => safe_pure .selfReference) fun _ => ?_
    cases haddr : context.process.symbols.addressOf (Symbol.ofRaw word) with
    | ok addr => exact safe_pure (.address addr)
    | error fault => exact safe_throw ((SymbolTable.isError_of_addressOf hroomy.anchor haddr).map _)
  | constant =>
    refine safe_ite (fun _ => (safe_readValue hroomy).bind fun value _ =>
      safe_pure (.immediate value)) fun _ => ?_
    exact safe_ite (fun hlt => safe_pure (.recorded word hlt)) fun _ => safe_throw ⟨_, rfl⟩

/-- **Relocations whose records are in their section are bound to well-formed ones.** -/
theorem safe_bindAll (hroomy : context.process.Roomy) {sectionSize referenceCount : Nat}
    {bindings : List Binding}
    (hinside : ∀ binding ∈ bindings, binding.1.2.2.toNat < max 1 sectionSize) :
    Safe (fun relocations => ∀ relocation ∈ relocations,
      relocation.WellFormed sectionSize referenceCount)
      (context.bindAll referenceCount bindings) := by
  induction bindings with
  | nil => exact safe_pure (by simp)
  | cons binding bindings ih =>
    obtain ⟨hfirst, hothers⟩ := List.forall_mem_cons.1 hinside
    refine (safe_bindValue hroomy _ _ _).bind fun value hvalue => (ih hothers).bind
      fun relocations hrelocations => ?_
    exact safe_pure (List.forall_mem_cons.2 ⟨⟨hfirst, hvalue⟩, hrelocations⟩)

theorem answers_readRecord (sectionSize : Nat) :
    Answers (fun record : RelocationKind × UInt8 × UInt32 => record.2.2.toNat < max 1 sectionSize)
      (readRecord sectionSize) := by
  refine Answers.bind fun raw => ?_
  split
  · refine Answers.bind fun format => Answers.bind fun reserved => Answers.bind fun offset => ?_
    refine answers_unless (u := ()) fun hinside => answers_pure ?_
    have h : insideSection offset sectionSize = true := by simpa using hinside
    exact of_decide_eq_true h
  · exact answers_throw _

theorem safe_readRelocations (hroomy : context.process.Roomy) (referenceCount sectionSize : Nat) :
    Safe (fun read => ∀ relocation ∈ read.1, relocation.WellFormed sectionSize referenceCount)
      (context.readRelocations referenceCount sectionSize) := by
  refine Safe.lift_bind fun count => Safe.lift_bind fun locsPoint => ?_
  refine (Safe.lift (answers_readMany (answers_readRecord sectionSize) count)).bind
    fun records hrecords => ?_
  refine Safe.lift_bind fun words => ?_
  have hinside : ∀ binding ∈ records.zip words, binding.1.2.2.toNat < max 1 sectionSize :=
    fun binding hmem => hrecords.2 binding.1 (List.of_mem_zip hmem).1
  exact (safe_bindAll hroomy hinside).bind fun relocations hrelocations => safe_pure hrelocations

/-- There are as many constants in the table as were counted. -/
theorem safe_readReferences (hroomy : context.process.Roomy) (count : Nat) :
    Safe (fun values => values.length = count) (context.readReferences count) := by
  induction count with
  | zero => exact safe_pure rfl
  | succ count ih =>
    refine (safe_readValue hroomy).bind fun value _ => ih.bind fun values hvalues => safe_pure ?_
    rw [List.length_cons, hvalues]

end Context

theorem Sections.safe_mapM {property : SectionKind → β → Prop} {f : α → Decoding β} {s : Sections α}
    (h : ∀ kind, Safe (property kind) (f (s.get kind))) :
    Safe (fun t : Sections β => ∀ kind, property kind (t.get kind)) (s.mapM f) :=
  (h .consts).bind fun _ h1 => (h .insts).bind fun _ h2 => (h .stubs).bind fun _ h3 =>
    safe_pure fun kind => by cases kind <;> assumption

/-- A section is as large as its descriptor says. -/
theorem Artifact.answers_readSection (entry : Entry) (descriptor : SectionDescriptor) :
    Answers (fun part : CodeSection => part.kind = descriptor.kind ∧
      part.bytes.size = descriptor.size.toNat)
      (readSection entry descriptor) := by
  refine Answers.bind fun _ => Answers.bind fun cursor => answers_unless (u := ()) fun _ => ?_
  exact (answers_readBytes _).bind_of fun bytes hsize => answers_pure ⟨rfl, hsize⟩

namespace Context

variable {context : Context} {entry : Entry}

/-- What is known of an artifact that is read behind the descriptors. -/
structure Fills (entry : Entry) (name : String) (descriptors : Sections SectionDescriptor)
    (artifact : Artifact) :
    Prop where
  name_eq : artifact.name = name
  kinds : ∀ kind, (artifact.sections.get kind).kind = (descriptors.get kind).kind
  sizes : ∀ kind, (artifact.sections.get kind).bytes.size = (descriptors.get kind).size.toNat
  relocations : ∀ kind, ∀ relocation ∈ (artifact.sections.get kind).relocations,
    relocation.WellFormed (artifact.sections.get kind).bytes.size artifact.references.length
  dependencies : entry.kind ≠ .code → artifact.dependencies = #[]

/-- **What follows the descriptors is refused, or is as they say.** -/
theorem safe_readBody (hroomy : context.process.Roomy) (name : String)
    (descriptors : Sections SectionDescriptor) :
    Safe (Fills entry name descriptors) (context.readBody entry name descriptors) := by
  have hread : ∀ descriptor, Safe (fun part : CodeSection => part.kind = descriptor.kind ∧
      part.bytes.size = descriptor.size.toNat)
        (Artifact.readSection entry descriptor : Reading CodeSection) :=
    fun descriptor => Safe.lift (Artifact.answers_readSection entry descriptor)
  refine (Sections.safe_mapM fun kind => hread (descriptors.get kind)).bind fun parts hparts => ?_
  refine Safe.lift_bind fun _ => Safe.lift_bind fun referenceCount => ?_
  have hbound : ∀ part : CodeSection, Safe (fun bound : CodeSection => bound.kind = part.kind ∧
      bound.bytes.size = part.bytes.size ∧
      ∀ relocation ∈ bound.relocations, relocation.WellFormed part.bytes.size referenceCount) (do
        let read ← context.readRelocations referenceCount part.bytes.size
        return { part with relocations := read.1, locsPoint := read.2 }) :=
    fun part => (safe_readRelocations hroomy _ _).bind fun read hread => safe_pure ⟨rfl, rfl, hread⟩
  refine (Sections.safe_mapM fun kind => hbound (parts.get kind)).bind fun bound hsections => ?_
  refine Safe.lift_bind fun _ => Safe.lift_bind fun tables => ?_
  refine (safe_readReferences hroomy _).bind fun references hreferences => ?_
  have hfills : ∀ dependencies : Bytes, (entry.kind ≠ .code → dependencies = #[]) →
      Fills entry name descriptors {
        kind := entry.kind, id := entry.id, name, sections := bound, frame := tables.frame,
        oopMaps := tables.oopMaps, pcDescriptors := tables.pcDescriptors, scopes := tables.scopes,
        exceptionHandlers := tables.exceptionHandlers, nullChecks := tables.nullChecks, references,
        dependencies, compile := Artifact.compileInfo entry } := by
    intro dependencies hdependencies
    refine ⟨rfl, fun kind => ?_, fun kind => ?_, fun kind => ?_, hdependencies⟩
    · exact (hsections kind).1.trans (hparts kind).1
    · exact (hsections kind).2.1.trans (hparts kind).2
    · simp only [(hsections kind).2.1, hreferences]
      exact (hsections kind).2.2
  refine safe_ite (fun hcode => Safe.lift_bind fun dependencies => ?_) fun hcode => ?_
  · exact safe_pure (hfills dependencies fun hother => absurd hcode hother)
  · rw [pure_bind]
    exact safe_pure (hfills #[] fun _ => rfl)

end Context

/-! ## 3. Names and descriptors -/

theorem answers_readCString : Answers (fun text => (0 : UInt8) ∉ ofString text) readCString := by
  refine Answers.bind fun text => ?_
  unfold decodeText
  cases hdecode : Utf8.decode text.val with
  | ok decoded => exact answers_pure (ofString_of_decode hdecode ▸ text.property)
  | error fault => exact answers_throw _

theorem SectionDescriptor.answers_read (expected : SectionKind) :
    Answers (fun descriptor => descriptor.kind = expected) (read expected) := by
  refine Answers.bind fun cursor => Answers.bind fun raw => answers_unless (u := ()) fun _ => ?_
  refine Answers.bind fun size => Answers.bind fun origin => Answers.bind fun offset => ?_
  exact Answers.bind fun _ => answers_pure rfl

namespace Payload

variable {payload : Bytes} {entry : Entry}

/-- A name that is read has no nul, and is as long as the entry says. -/
theorem peekName_ok {name : String} (h : peekName payload entry = .ok name) :
    (0 : UInt8) ∉ ofString name ∧ (ofString name).size + 1 = entry.nameSize.toNat := by
  obtain ⟨text, htext, h⟩ := except_bind_eq_ok.1 h
  dsimp only at h
  split at h
  · cases h
  · rename_i hsize
    cases h
    exact ⟨answers_readCString.of_runAt htext, Decidable.not_not.1 hsize⟩

/-- The descriptors that are read are those of the three sections, and say how many bytes of code
    there are. -/
theorem peekSections_ok {descriptors : Sections SectionDescriptor}
    (h : peekSections payload entry = .ok descriptors) :
    (∀ kind, (descriptors.get kind).kind = kind) ∧
      descriptors.consts.size.toNat + descriptors.insts.size.toNat + descriptors.stubs.size.toNat =
        entry.codeSize.toNat := by
  obtain ⟨read, hread, h⟩ := except_bind_eq_ok.1 h
  obtain ⟨_, -, h⟩ := except_bind_eq_ok.1 h
  dsimp only at h
  split at h
  · cases h
  · rename_i htotal
    cases h
    have hkinds : Answers (fun descriptors : Sections SectionDescriptor =>
        ∀ kind, (descriptors.get kind).kind = kind) (Sections.kinds.mapM SectionDescriptor.read) :=
      (SectionDescriptor.answers_read .consts).bind_of fun _ h1 =>
        (SectionDescriptor.answers_read .insts).bind_of fun _ h2 =>
          (SectionDescriptor.answers_read .stubs).bind_of fun _ h3 =>
            answers_pure fun kind => by cases kind <;> assumption
    exact ⟨hkinds.of_runAt hread, Decidable.not_not.1 htotal⟩

end Payload

/-! ## 4. Payloads -/

namespace Context

variable {context : Context} {payload : Bytes} {entry : Entry}

/-- **An artifact that is read is well-formed.** -/
theorem wellFormed_of_readArtifact (hroomy : context.process.Roomy) {artifact : Artifact}
    (h : context.readArtifact payload entry = .ok artifact) : artifact.WellFormed entry := by
  obtain ⟨⟨read, finish⟩, hread, rfl⟩ := except_map_eq_ok.1 h
  obtain ⟨name, descriptors, _, _, hname, hdescriptors, -, hbody, -⟩ := readPayload_eq_ok hread
  obtain ⟨hnul, hsize⟩ := Payload.peekName_ok hname
  obtain ⟨hkinds, htotal⟩ := Payload.peekSections_ok hdescriptors
  have hfills : Fills entry name descriptors read :=
    (safe_readBody hroomy name descriptors).answers hbody
  refine ⟨hfills.name_eq ▸ hnul, hfills.name_eq ▸ hsize, fun kind => ?_, ?_, hfills.relocations,
    hfills.dependencies⟩
  · exact (hfills.kinds kind).trans (hkinds kind)
  · rw [← htotal]
    exact congrArg₂ (· + ·) (congrArg₂ (· + ·) (hfills.sizes .consts) (hfills.sizes .insts))
      (hfills.sizes .stubs)

/-- **Reading a payload does not stop the process.** -/
theorem isError_of_readPayload (hroomy : context.process.Roomy) {fault : Fault CacheError}
    (h : context.readPayload payload entry = .error fault) : fault.IsError := by
  rcases except_bind_eq_error.1 h with h | ⟨name, -, h⟩
  · exact isError_of_liftError h
  rcases except_bind_eq_error.1 h with h | ⟨descriptors, -, h⟩
  · exact isError_of_liftError h
  dsimp only at h
  split at h
  · cases h
  · rename_i hrun
    cases h
    have hsafe : Safe (Fills entry name descriptors) (do
        (Cursor.seek (entry.codeOffset.toNat + 3 * SectionDescriptor.encodedSize) : Reading Unit)
        context.readBody entry name descriptors) :=
      Safe.lift_bind fun _ => safe_readBody hroomy name descriptors
    exact hsafe.refuses hrun

/-- **Whatever bytes are read with whatever entry, reading ends with an error or with an artifact
    that is well-formed**, in a process with room for every distance. -/
theorem readArtifact_safe (hroomy : context.process.Roomy) (payload : Bytes) (entry : Entry) :
    (∃ artifact, context.readArtifact payload entry = .ok artifact ∧ artifact.WellFormed entry) ∨
      ∃ cause, context.readArtifact payload entry = .error (.error cause) := by
  cases h : context.readArtifact payload entry with
  | ok artifact => exact .inl ⟨artifact, rfl, wellFormed_of_readArtifact hroomy h⟩
  | error fault =>
    obtain ⟨cause, rfl⟩ := isError_of_map (fun _ => isError_of_readPayload hroomy) h
    exact .inr ⟨cause, rfl⟩

/-- The stub that calls itself is read from what was written, and no bytes at all are refused. -/
theorem readArtifact_safe_selfCallingStub :
    internedOnce.Roomy ∧
      (∃ payload entry artifact,
        Context.readArtifact ⟨internedOnce, false⟩ payload entry = .ok artifact ∧
        artifact.WellFormed entry) ∧
      ∃ cause, Context.readArtifact ⟨internedOnce, false⟩ #[] (Entry.blank .code 7) =
        .error (.error cause) := by
  have hroomy : Context.process ⟨internedOnce, false⟩ |>.Roomy := ⟨by decide +kernel, by decide⟩
  obtain ⟨layout, after, payload, -, -, read, hread⟩ := selfCallingStub_isRead
  refine ⟨hroomy, ⟨payload, Session.entryOf false selfCallingStub layout, ?_⟩, ?_⟩
  · exact (readArtifact_safe hroomy _ _).resolve_right fun ⟨_, h⟩ => nomatch hread.symm.trans h
  · refine (readArtifact_safe hroomy _ _).resolve_left fun ⟨artifact, h, _⟩ => ?_
    have hrefused : (Context.readArtifact ⟨internedOnce, false⟩ #[] (Entry.blank .code 7)).isOk =
        false := by
      decide +kernel
    rw [h] at hrefused
    cases hrefused

end Context

end CodeVault
