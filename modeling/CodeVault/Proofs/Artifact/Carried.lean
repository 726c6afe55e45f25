import CodeVault.Proofs.Artifact.RoundTrip

/-!
# The references in a payload

A payload carries its constants as references: in its table, and behind the relocations of each
section. They can be read without a process (`Payload.references`), as they are read in a process
but for what is made of them.

* **what is written of an artifact carries a reference for each of its values**
  (`references_of_writeArtifact`);
* **an artifact that is read has a value for each reference that its payload carries**
  (`references_of_readArtifact`).
-/

namespace CodeVault

open Arena Bytes Cursor Container

/-! ## 1. Reading references alone -/

namespace Payload

/-- Reads the constants that stand behind the words of relocations: one for each relocation that
    carries a constant and has the marker for its word. -/
def readConstants : List Context.Binding → Reading (List Reference)
  | [] => return []
  | ((kind, _, _), word) :: rest =>
    if kind.operand = .constant ∧ word = relocationMarker then do
      let reference ← Reference.read
      let references ← readConstants rest
      return reference :: references
    else readConstants rest

/-- Reads the relocations of a section, and answers the constants. -/
def readSectionConstants (sectionSize : Nat) : Reading (List Reference) := do
  let (bindings, _) ← Context.readBindings sectionSize
  readConstants bindings

/-- Reads what follows the section descriptors, and answers the references: those of the table, and
    those of the three sections. -/
def readReferences (entry : Entry) (descriptors : Sections SectionDescriptor) :
    Reading (List Reference) := do
  let sections ← descriptors.mapM (Artifact.readSection entry)
  Cursor.align
  let referenceCount ← Cursor.readCount 4
  let constants ← sections.mapM fun part => readSectionConstants part.bytes.size
  Cursor.align
  let _ ← Artifact.readTables
  let references ← Cursor.readMany Reference.read referenceCount
  let _ ← if entry.kind = .code then Cursor.readBlob else pure #[]
  return references ++ constants.toList.flatten

/-- The references that the payload of an entry carries. -/
def references (payload : Bytes) (entry : Entry) : Except CacheError (List Reference) := do
  let descriptors ← peekSections payload entry
  Cursor.runAt payload (entry.codeOffset.toNat + 3 * SectionDescriptor.encodedSize)
    (readReferences entry descriptors)

end Payload

namespace Sections

variable {ε φ σ α β γ δ : Type}

theorem traces_mapM (related : γ → δ → Prop) {f : α → EStateM ε σ γ} {g : β → EStateM φ σ δ}
    {s : Sections α} {t : Sections β}
    (h : ∀ kind, Traces (f (s.get kind)) (g (t.get kind)) related) :
    Traces (s.mapM f) (t.mapM g) fun u v => ∀ kind, related (u.get kind) (v.get kind) :=
  (h .consts).bind fun _ _ h1 => (h .insts).bind fun _ _ h2 => (h .stubs).bind fun _ _ h3 =>
    traces_pure fun kind => by cases kind <;> assumption

/-- Lists for the three sections that are related section by section are related as a whole. -/
theorem forall₂_flatten {related : α → β → Prop} {s : Sections (List α)} {t : Sections (List β)}
    (h : ∀ kind, List.Forall₂ related (s.get kind) (t.get kind)) :
    List.Forall₂ related s.toList.flatten t.toList.flatten :=
  List.rel_append (h .consts) (List.rel_append (h .insts) (List.rel_append (h .stubs) .nil))

end Sections

/-- The constant that a relocation gets, if it is one that stands in the code itself. -/
def RelocationValue.constant? (value : RelocationValue) : Option EmbeddedValue :=
  match value with
  | .immediate value => some value
  | _ => Option.none

/-- The constants of an artifact's sections, one section after the other. -/
theorem Artifact.values_eq (artifact : Artifact) :
    artifact.values =
      artifact.references ++ (artifact.sections.map CodeSection.constants).toList.flatten :=
  rfl

/-- The references that stand for the values of an artifact: those of the table, and those behind
    the relocations of the three sections. -/
def Encoded.all (encoded : Encoded) : List Reference :=
  encoded.references ++ (encoded.auxiliaries.map (List.filterMap (·.2))).toList.flatten

namespace Context

variable {context : Context}

/-! ## 2. What is read in a process -/

/-- A reference stands for a value in this process. -/
def Decodes (context : Context) (reference : Reference) (value : EmbeddedValue) : Prop :=
  context.decodeValue reference = .ok value

theorem traces_readValue : Traces Reference.read context.readValue context.Decodes := by
  intro s t value hrun
  obtain ⟨reference, middle, hread, hrest⟩ := bind_ok hrun
  cases hdecode : context.decodeValue reference with
  | error fault =>
    simp only [hdecode] at hrest
    cases hrest
  | ok decoded =>
    simp only [hdecode] at hrest
    obtain ⟨rfl, rfl⟩ := pure_ok hrest
    exact ⟨reference, lift_eq_ok.1 hread, hdecode⟩

/-- **A relocation gets a constant exactly where one stands behind the words.** -/
theorem bindValue_ok {referenceCount : Nat} {kind : RelocationKind} {word : UInt32}
    {value : RelocationValue} {s t : Cursor}
    (h : context.bindValue referenceCount kind word s = .ok value t) :
    (kind.operand = .constant ∧ word = relocationMarker ∧
      ∃ constant, value.constant? = some constant ∧ context.readValue s = .ok constant t) ∨
    (¬(kind.operand = .constant ∧ word = relocationMarker) ∧ t = s ∧ value.constant? = none) := by
  unfold bindValue at h
  cases hoperand : kind.operand with
  | nothing =>
    simp only [hoperand] at h
    obtain ⟨rfl, rfl⟩ := pure_ok h
    exact .inr ⟨by simp, rfl, rfl⟩
  | internal =>
    simp only [hoperand] at h
    obtain ⟨rfl, rfl⟩ := pure_ok h
    exact .inr ⟨by simp, rfl, rfl⟩
  | target =>
    simp only [hoperand] at h
    refine .inr ⟨by simp, ?_⟩
    split at h
    · obtain ⟨rfl, rfl⟩ := pure_ok h
      exact ⟨rfl, rfl⟩
    · cases haddress : context.process.symbols.addressOf (Symbol.ofRaw word) with
      | ok address =>
        simp only [haddress] at h
        obtain ⟨rfl, rfl⟩ := pure_ok h
        exact ⟨rfl, rfl⟩
      | error fault =>
        simp only [haddress] at h
        cases h
  | constant =>
    simp only [hoperand] at h
    split at h
    · rename_i hmarker
      obtain ⟨constant, middle, hread, hdone⟩ := bind_ok h
      obtain ⟨rfl, rfl⟩ := pure_ok hdone
      exact .inl ⟨rfl, hmarker, constant, rfl, hread⟩
    · rename_i hmarker
      refine .inr ⟨fun hboth => hmarker hboth.2, ?_⟩
      split at h
      · obtain ⟨rfl, rfl⟩ := pure_ok h
        exact ⟨rfl, rfl⟩
      · cases h

/-- **Constants are bound where they are read.** -/
theorem traces_bindAll (referenceCount : Nat) (bindings : List Binding) :
    Traces (Payload.readConstants bindings) (context.bindAll referenceCount bindings)
      fun references relocations =>
        List.Forall₂ context.Decodes references (relocations.filterMap (·.value.constant?)) := by
  induction bindings with
  | nil => exact traces_pure .nil
  | cons binding bindings ih =>
    obtain ⟨⟨kind, format, offset⟩, word⟩ := binding
    intro s t relocations hrun
    obtain ⟨value, middle, hvalue, hrest⟩ := bind_ok hrun
    obtain ⟨others, last, hothers, hdone⟩ := bind_ok hrest
    obtain ⟨rfl, rfl⟩ := pure_ok hdone
    obtain ⟨references, hreferences, hdecodes⟩ := ih hothers
    rcases bindValue_ok hvalue with
      ⟨hoperand, hmarker, constant, hconstant, hread⟩ | ⟨hnone, rfl, hother⟩
    · obtain ⟨reference, hreference, hdecode⟩ := traces_readValue hread
      refine ⟨reference :: references, ?_, ?_⟩
      · simp only [Payload.readConstants, hoperand, hmarker, and_self, if_true]
        rw [bind_of_ok hreference, bind_of_ok hreferences]
        rfl
      · simp only [List.filterMap_cons, hconstant]
        exact .cons hdecode hdecodes
    · refine ⟨references, by simp only [Payload.readConstants, if_neg hnone, hreferences], ?_⟩
      simp only [List.filterMap_cons, hother]
      exact hdecodes

theorem traces_readRelocations (referenceCount sectionSize : Nat) :
    Traces (Payload.readSectionConstants sectionSize)
      (context.readRelocations referenceCount sectionSize)
      fun references relocations =>
        List.Forall₂ context.Decodes references (relocations.1.filterMap (·.value.constant?)) := by
  rw [readRelocations_eq]
  refine Traces.bind_lift fun ⟨bindings, locsPoint⟩ => ?_
  exact (traces_bindAll referenceCount bindings).of_bind_pure fun _ _ h => h

theorem traces_readReferences (count : Nat) :
    Traces (Cursor.readMany Reference.read count) (context.readReferences count)
      (List.Forall₂ context.Decodes) := by
  induction count with
  | zero => exact traces_pure .nil
  | succ count ih =>
    exact traces_readValue.bind fun _ _ hfirst => ih.bind_pure fun _ _ hrest => .cons hfirst hrest

/-- **What follows the descriptors is read alike with and without a process.** -/
theorem traces_readBody (entry : Entry) (name : String) (descriptors : Sections SectionDescriptor) :
    Traces (Payload.readReferences entry descriptors) (context.readBody entry name descriptors)
      fun references artifact => List.Forall₂ context.Decodes references artifact.values := by
  unfold Context.readBody
  rw [Sections.mapM_lift]
  refine Traces.bind_lift fun sections => Traces.bind_lift fun _ => Traces.bind_lift
    fun referenceCount => ?_
  refine (Sections.traces_mapM (fun references part =>
    List.Forall₂ context.Decodes references part.constants) fun kind => ?_).bind
      fun constants parts hconstants => ?_
  · exact (traces_readRelocations _ _).of_bind_pure fun _ _ h => h
  refine Traces.bind_lift fun _ => Traces.bind_lift fun tables => ?_
  refine (traces_readReferences referenceCount).bind fun references values hreferences => ?_
  have hall : List.Forall₂ context.Decodes (references ++ constants.toList.flatten)
      (values ++ (parts.map CodeSection.constants).toList.flatten) :=
    List.rel_append hreferences
      (Sections.forall₂_flatten fun kind => by cases kind <;> exact hconstants _)
  by_cases hkind : entry.kind = .code
  · simp only [hkind, if_true]
    exact Traces.bind_lift fun _ => traces_pure hall
  · simp only [hkind, if_false, pure_bind]
    exact traces_pure hall

/-- **An artifact that is read has a value for each reference that its payload carries.** -/
theorem references_of_readArtifact {payload : Bytes} {entry : Entry} {artifact : Artifact}
    (h : context.readArtifact payload entry = .ok artifact) :
    ∃ references, Payload.references payload entry = .ok references ∧
      List.Forall₂ context.Decodes references artifact.values := by
  obtain ⟨⟨_, finish⟩, hread, rfl⟩ := except_map_eq_ok.1 h
  obtain ⟨name, descriptors, start, after, -, hdescriptors, hseek, hbody, -⟩ :=
    readPayload_eq_ok hread
  obtain ⟨references, hreferences, hdecodes⟩ := traces_readBody entry name descriptors hbody
  refine ⟨references, except_bind_eq_ok.2 ⟨descriptors, hdescriptors, ?_⟩, hdecodes⟩
  simp only [Cursor.runAt, bind_of_ok hseek, hreferences]

/-! ## 3. What is written -/

variable {artifact : Artifact} {encoded : Encoded}

/-- **A constant is written behind the words exactly where the relocation has one**, and the word
    says so. -/
theorem auxiliary_ok {origin : Address} {referenceCount : Nat} {relocation : Relocation}
    {auxiliary : Auxiliary} (hcount : referenceCount < wordSpace)
    (h : context.auxiliary origin referenceCount relocation = .ok auxiliary) :
    (relocation.kind.operand = .constant ∧ auxiliary.1 = relocationMarker ∧
      ∃ value reference, relocation.value.constant? = some value ∧ auxiliary.2 = some reference ∧
        context.encodeValue value = .ok reference) ∨
    (¬(relocation.kind.operand = .constant ∧ auxiliary.1 = relocationMarker) ∧ auxiliary.2 = none ∧
      relocation.value.constant? = none) := by
  unfold Context.auxiliary at h
  split at h
  · rename_i hoperand hvalue
    cases h
    exact .inr ⟨by simp [hoperand], rfl, by rw [hvalue]; rfl⟩
  · rename_i hoperand hvalue
    cases h
    exact .inr ⟨by simp [hoperand], rfl, by rw [hvalue]; rfl⟩
  · rename_i hoperand hvalue
    obtain ⟨word, -, rfl⟩ := except_map_eq_ok.1 h
    exact .inr ⟨by simp [hoperand], rfl, by rw [hvalue]; rfl⟩
  · rename_i value hoperand hvalue
    obtain ⟨reference, hencode, rfl⟩ := except_map_eq_ok.1 (liftError_eq_ok.1 h)
    exact .inl ⟨hoperand, rfl, value, reference, by rw [hvalue]; rfl, rfl, hencode⟩
  · rename_i hoperand hvalue
    cases h
    exact .inr ⟨by simp [hoperand], rfl, by rw [hvalue]; rfl⟩
  · rename_i index hoperand hvalue
    split at h
    · rename_i hlt
      cases h
      -- An index into the table is below the number of its constants, and so is no marker.
      have hne : index ≠ relocationMarker := ne_marker (by omega)
      exact .inr ⟨fun hboth => hne hboth.2, rfl, by rw [hvalue]; rfl⟩
    · cases h
  · cases h

/-- **The constants behind the words are read back, and they stand for those of the
    relocations.** -/
theorem spells_readConstants {origin : Address} {referenceCount : Nat}
    {relocations : List Relocation} {coding : List Auxiliary} (hcount : referenceCount < wordSpace)
    (hlegible : ∀ auxiliary ∈ coding, auxiliary.Legible)
    (h : context.Coding origin referenceCount relocations coding) :
    Spells (join (coding.map constantBytes)) (Payload.readConstants (bindings relocations coding))
        (coding.filterMap (·.2)) ∧
      List.Forall₂ (fun value reference => context.encodeValue value = .ok reference)
        (relocations.filterMap (·.value.constant?)) (coding.filterMap (·.2)) := by
  induction h with
  | nil => exact ⟨spells_pure [], .nil⟩
  | @cons relocation auxiliary relocations coding hfirst _ ih =>
    obtain ⟨hlegible, hothers⟩ := List.forall_mem_cons.1 hlegible
    obtain ⟨hspells, hencodes⟩ := ih hothers
    rcases auxiliary_ok hcount hfirst with
      ⟨hoperand, hmarker, value, reference, hvalue, hreference, hencode⟩ |
        ⟨hnone, hreference, hvalue⟩
    · simp only [List.filterMap_cons, hvalue, hreference]
      refine ⟨?_, .cons hencode hencodes⟩
      simp only [bindings, List.map_cons, List.zip_cons_cons, Payload.readConstants,
        hoperand, hmarker, and_self, if_true, join_cons, constantBytes, hreference, Option.map_some,
        Option.getD_some]
      exact (hlegible reference hreference).bind hspells.bind_pure
    · simp only [List.filterMap_cons, hvalue, hreference]
      refine ⟨?_, hencodes⟩
      simp only [bindings, List.map_cons, List.zip_cons_cons, Payload.readConstants, if_neg hnone,
        join_cons, constantBytes, hreference, Option.map_none, Option.getD_none, Array.empty_append]
      exact hspells

/-- The relocations of a section are read back to their constants. -/
theorem spells_readSectionConstants {referenceCount : Nat} {part : CodeSection}
    {coding : List Auxiliary} (hcount : referenceCount < wordSpace)
    (h : context.CodesRelocations referenceCount part coding) :
    Spells (relocationBytes part coding) (Payload.readSectionConstants part.bytes.size)
      (coding.filterMap (·.2)) := by
  rw [relocationBytes_eq]
  exact (spells_readBindings h).bind (spells_readConstants hcount h.legible h.codes).1

/-- The references of a payload stand for the values of the artifact. -/
theorem Encodes.forall₂_values (h : context.Encodes artifact encoded) :
    List.Forall₂ (fun value reference => context.encodeValue value = .ok reference) artifact.values
      encoded.all := by
  rw [Artifact.values_eq]
  refine List.rel_append h.references (Sections.forall₂_flatten fun kind => ?_)
  have hconstants :=
    (spells_readConstants h.count_lt (h.relocations kind).legible (h.relocations kind).codes).2
  cases kind <;> exact hconstants

/-- **What stands behind the descriptors is read back to the references.** -/
theorem reads_readReferences {entry : Entry} (h : context.Encodes artifact encoded)
    (hkind : entry.kind = artifact.kind) :
    Reads (Payload.readReferences entry artifact.descriptors) (artifact.payload encoded)
      artifact.frontBytes.size encoded.all (artifact.payload encoded).size := by
  obtain ⟨halign, hcount, hrelocations, hlinked, halign', htail, hfinish⟩ := payload_parts h
  have hconstants : Spells (relocationParts artifact encoded).bytes
      ((artifact.sections.map Artifact.bare).mapM fun part =>
        Payload.readSectionConstants part.bytes.size)
      (encoded.auxiliaries.map (List.filterMap (·.2))) := by
    refine Sections.spells_mapM fun kind => ?_
    have hsection := spells_readSectionConstants h.count_lt (h.relocations kind)
    cases kind <;> exact hsection
  have htable : Spells (join (encoded.references.map Reference.encode))
      (Cursor.readMany Reference.read artifact.references.length) (encoded.references.map id) := by
    rw [h.references.length_eq]
    exact spells_readMany h.legible
  refine (Artifact.reads_sections h.sections (partAt_payload artifact encoded)).bind ?_
  refine halign.bind (hcount.bind (Reads.bind (reads_of_partAt hrelocations hlinked hconstants) ?_))
  refine halign'.bind (reads_of_partAt htail hfinish (h.tables.bind (htable.bind ?_)))
  refine spells_dependencies hkind h.dependencies ?_
  rw [List.map_id]
  exact spells_pure _

/-- **What is written of an artifact carries a reference for each of its values.** -/
theorem references_of_writeArtifact {arena after : Arena} {layout : PayloadLayout}
    (h : context.writeArtifact artifact arena = .ok layout after) (offline : Bool) :
    ∃ payload references, after.bytes.slice? layout.offset layout.size = some payload ∧
      Payload.references payload (Session.entryOf offline artifact layout) = .ok references ∧
      List.Forall₂ (fun value reference => context.encodeValue value = .ok reference)
        artifact.values
        references := by
  obtain ⟨encoded, hencodes, hslice, hlayout⟩ := payload_of_writeArtifact h
  refine ⟨artifact.payload encoded, encoded.all, hslice, ?_, hencodes.forall₂_values⟩
  refine except_bind_eq_ok.2
    ⟨artifact.descriptors, peekSections_of_encodes hencodes hlayout offline, ?_⟩
  rw [bodyStart_of_describes hlayout]
  exact runAt_of_reads (size_frontBytes_le artifact encoded) (reads_readReferences hencodes rfl)

end Context

end CodeVault
