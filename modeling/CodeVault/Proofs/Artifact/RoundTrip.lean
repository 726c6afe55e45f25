import CodeVault.Proofs.Artifact.Payload
import CodeVault.Session.Basic

/-!
# Artifacts come back

* The payload of an artifact is where its layout says (`payload_of_writeArtifact`), and its name and
  its section descriptors are read from it (`peekName_of_encodes`, `peekSections_of_encodes`);
* **what was written of an artifact is read back, in the same process, as the artifact rebound**
  (`readPayload_ok`): nothing is left over of the payload, and the artifact is what it was, but for
  what `Context.rebind` says.
-/

namespace CodeVault

open Arena Bytes Cursor Container

/-! ## 1. What comes back -/

/-- The constants that stand in the code of a section itself. -/
def CodeSection.constants (part : CodeSection) : List EmbeddedValue :=
  part.relocations.filterMap fun relocation => match relocation.value with
    | .immediate value => some value
    | _ => none

/-- The embedded values of an artifact: those of its table, and those that stand in its code. -/
def Artifact.values (artifact : Artifact) : List EmbeddedValue :=
  artifact.references ++ artifact.sections.toList.flatMap CodeSection.constants

namespace Context

variable {context : Context} {artifact : Artifact} {encoded : Encoded}

/-- A section with its relocations bound again. -/
def rebindSection (context : Context) (part : CodeSection) : CodeSection :=
  { part with relocations := part.relocations.map (context.rebound part.origin) }

/-- An artifact as it comes back in the same process: its relocations are bound again, and only a
    compiled method keeps its dependencies. -/
def rebind (context : Context) (artifact : Artifact) : Artifact :=
  { artifact with
    sections := artifact.sections.map context.rebindSection
    dependencies := if artifact.kind = .code then artifact.dependencies else #[] }

/-- A constant that stands in the code is among the values of the artifact. -/
theorem mem_values {kind : SectionKind} {relocation : Relocation} {value : EmbeddedValue}
    (hmem : relocation ∈ (artifact.sections.get kind).relocations)
    (hvalue : relocation.value = .immediate value) : value ∈ artifact.values := by
  refine List.mem_append_right _ (List.mem_flatMap.2 ⟨artifact.sections.get kind, ?_, ?_⟩)
  · cases kind <;> simp [Sections.toList, Sections.get]
  · exact List.mem_filterMap.2 ⟨relocation, hmem, by rw [hvalue]⟩

/-! ## 2. Reading the payload -/

theorem spells_readReferences {values : List EmbeddedValue} {references : List Reference}
    (h : List.Forall₂ (fun value reference => context.encodeValue value = .ok reference) values
      references)
    (hlegible : ∀ reference ∈ references, reference.Legible)
    (hvalues : ∀ value ∈ values, context.Restores value) :
    Spells (join (references.map Reference.encode)) (context.readReferences values.length)
      values := by
  induction h with
  | nil => exact spells_pure []
  | cons hencode _ ih =>
    obtain ⟨hlegible, hothers⟩ := List.forall_mem_cons.1 hlegible
    obtain ⟨hvalue, hvalues⟩ := List.forall_mem_cons.1 hvalues
    exact (spells_readValue hlegible hencode hvalue).bind (ih hothers hvalues).bind_pure

/-- The relocations of a section are put into the section as it was read. -/
theorem spells_rebindSection {referenceCount : Nat} {part : CodeSection} {coding : List Auxiliary}
    (hsound : context.process.symbols.Sound) (hcount : referenceCount < wordSpace)
    (hvalues : ∀ relocation ∈ part.relocations, ∀ value, relocation.value = .immediate value →
      context.Restores value)
    (h : context.CodesRelocations referenceCount part coding) :
    Spells (relocationBytes part coding) (do
      let (relocations, locsPoint) ←
        context.readRelocations referenceCount (Artifact.bare part).bytes.size
      return { Artifact.bare part with relocations, locsPoint } : Decoding CodeSection)
      (context.rebindSection part) :=
  (spells_readRelocations hsound hcount hvalues h).bind_nothing (spells_pure _)

/-- The relocations of the three sections, as they stand one behind the other. -/
def relocationParts (artifact : Artifact) (encoded : Encoded) : Sections Bytes :=
  ⟨relocationBytes artifact.sections.consts encoded.auxiliaries.consts,
   relocationBytes artifact.sections.insts encoded.auxiliaries.insts,
   relocationBytes artifact.sections.stubs encoded.auxiliaries.stubs⟩

theorem spells_relocations (hsound : context.process.symbols.Sound)
    (hvalues : ∀ value ∈ artifact.values, context.Restores value)
    (h : context.Encodes artifact encoded) :
    Spells (relocationParts artifact encoded).bytes
      ((artifact.sections.map Artifact.bare).mapM fun part => do
        let (relocations, locsPoint) ←
          context.readRelocations artifact.references.length part.bytes.size
        return { part with relocations, locsPoint } : Decoding (Sections CodeSection))
      (artifact.sections.map context.rebindSection) := by
  refine Sections.spells_mapM fun kind => ?_
  have hsection := spells_rebindSection hsound h.count_lt
    (fun relocation hmem value hvalue => hvalues value (mem_values hmem hvalue))
    (h.relocations kind)
  cases kind <;> exact hsection

/-- The dependencies are read back, if there are any, before whatever reads nothing more. -/
theorem spells_dependencies {ε β : Type} {kind : EntryKind} {x : EStateM ε Cursor Bytes}
    {k : Bytes → EStateM ε Cursor β} {b : β} (hkind : kind = artifact.kind)
    (hx : artifact.kind = .code →
      Spells (Artifact.blobBytes artifact.dependencies) x artifact.dependencies)
    (hk : Spells #[] (k (if artifact.kind = .code then artifact.dependencies else #[])) b) :
    Spells artifact.dependencyBytes (if kind = .code then x >>= k else pure #[] >>= k) b := by
  subst hkind
  by_cases hcode : artifact.kind = .code
  · simp only [hcode, if_true] at hk
    simp only [Artifact.dependencyBytes, hcode, if_true]
    exact (hx hcode).bind_nothing hk
  · simp only [hcode, if_false] at hk
    simp only [Artifact.dependencyBytes, hcode, if_false]
    exact (spells_pure #[]).bind_nothing hk

/-- There is a word for each reference of the table. -/
theorem references_room (h : context.Encodes artifact encoded) :
    artifact.references.length * 4 ≤ (join (encoded.references.map Reference.encode)).size := by
  have hroom : (encoded.references.map Reference.encode).length * 4 ≤
      (join (encoded.references.map Reference.encode)).size :=
    length_mul_le_size_join fun piece hmem => by
      obtain ⟨reference, -, rfl⟩ := List.mem_map.1 hmem
      exact reference.four_le_size_encode
  rwa [List.length_map, ← h.references.length_eq] at hroom

/-- **Where the parts of a payload are that stand behind its sections**: the number of constants in
    the table and the relocations, then the tables of the runtime, the constants, and the
    dependencies. -/
theorem payload_parts (h : context.Encodes artifact encoded) :
    Reads align (artifact.payload encoded) artifact.codeBytes.size ()
      (alignUp artifact.codeBytes.size) ∧
    Reads (readCount 4) (artifact.payload encoded) (alignUp artifact.codeBytes.size)
      artifact.references.length (alignUp artifact.codeBytes.size + 4) ∧
    PartAt (artifact.payload encoded) (alignUp artifact.codeBytes.size + 4)
      (relocationParts artifact encoded).bytes ∧
    alignUp artifact.codeBytes.size + 4 + (relocationParts artifact encoded).bytes.size
      = (artifact.linkedBytes encoded).size ∧
    Reads align (artifact.payload encoded) (artifact.linkedBytes encoded).size ()
      (alignUp (artifact.linkedBytes encoded).size) ∧
    PartAt (artifact.payload encoded) (alignUp (artifact.linkedBytes encoded).size)
      (artifact.tableBytes ++ (join (encoded.references.map Reference.encode)
        ++ artifact.dependencyBytes)) ∧
    alignUp (artifact.linkedBytes encoded).size + (artifact.tableBytes ++
      (join (encoded.references.map Reference.encode) ++ artifact.dependencyBytes)).size
      = (artifact.payload encoded).size := by
  obtain ⟨hpadded, htail⟩ := partAt_append.1 (partAt_self (artifact.payload encoded))
  obtain ⟨hcode, hcounted⟩ := partAt_append.1 (partAt_append.1 hpadded).1
  obtain ⟨hcount, hrelocations⟩ := partAt_append.1 hcounted
  rw [size_ofU32] at hrelocations
  rw [Nat.zero_add, size_padded] at htail hcount hrelocations
  have hlinked : alignUp artifact.codeBytes.size + 4 + (relocationParts artifact encoded).bytes.size
      = (artifact.linkedBytes encoded).size := by
    simp only [Artifact.linkedBytes, relocationParts, Sections.bytes, Array.size_append, size_ofU32,
      size_padded]
    omega
  have hfinish : alignUp (artifact.linkedBytes encoded).size + (artifact.tableBytes ++
      (join (encoded.references.map Reference.encode) ++ artifact.dependencyBytes)).size
      = (artifact.payload encoded).size := by
    simp only [Artifact.payload, Array.size_append, size_padded]
  have hroom := references_room h
  have hbehind := le_alignUp (artifact.linkedBytes encoded).size
  have hends := htail.le
  simp only [Array.size_append] at hends
  exact ⟨reads_align (by omega), reads_readCount h.count_lt hcount (by omega),
    hrelocations, hlinked, reads_align (by omega), htail, hfinish⟩

theorem partAt_payload (artifact : Artifact) (encoded : Encoded) :
    PartAt (artifact.payload encoded) 0 artifact.codeBytes :=
  (partAt_append.1 (partAt_append.1 (partAt_append.1 (partAt_append.1
    (partAt_self (artifact.payload encoded))).1).1).1).1

/-- **What stands behind the descriptors is read back.** -/
theorem reads_readBody {entry : Entry} (hsound : context.process.symbols.Sound)
    (hvalues : ∀ value ∈ artifact.values, context.Restores value)
    (h : context.Encodes artifact encoded) (hkind : entry.kind = artifact.kind)
    (hid : entry.id = artifact.id) (hcompile : Artifact.compileInfo entry = artifact.compile) :
    Reads (context.readBody entry artifact.name artifact.descriptors) (artifact.payload encoded)
      artifact.frontBytes.size (context.rebind artifact) (artifact.payload encoded).size := by
  obtain ⟨halign, hcount, hrelocations, hlinked, halign', htail, hfinish⟩ := payload_parts h
  unfold readBody
  rw [Sections.mapM_lift]
  refine (Artifact.reads_sections h.sections (partAt_payload artifact encoded)).lift.bind ?_
  refine halign.lift.bind (hcount.lift.bind ?_)
  refine (reads_of_partAt hrelocations hlinked (spells_relocations hsound hvalues h)).bind ?_
  refine halign'.lift.bind (reads_of_partAt htail hfinish (h.tables.lift.bind ?_))
  refine (spells_readReferences h.references h.legible fun value hmem =>
    hvalues value (List.mem_append_left _ hmem)).bind ?_
  refine spells_dependencies hkind (fun hcode => (h.dependencies hcode).lift) ?_
  rw [hkind, hid, hcompile]
  exact spells_pure _

/-- A payload that is read has a name and descriptors, and its body is read from behind them to
    where reading ends. -/
theorem readPayload_eq_ok {payload : Bytes} {entry : Entry} {finish : Nat}
    (h : context.readPayload payload entry = .ok (artifact, finish)) :
    ∃ name descriptors start after, Payload.peekName payload entry = .ok name ∧
      Payload.peekSections payload entry = .ok descriptors ∧
      Cursor.seek (entry.codeOffset.toNat + 3 * SectionDescriptor.encodedSize)
        (Cursor.ofBytes payload)
        = .ok () start ∧
      context.readBody entry name descriptors start = .ok artifact after ∧ after.pos = finish := by
  obtain ⟨name, hname, h⟩ := except_bind_eq_ok.1 h
  obtain ⟨descriptors, hdescriptors, h⟩ := except_bind_eq_ok.1 h
  dsimp only at h
  split at h
  · rename_i hrun
    cases h
    obtain ⟨_, start, hseek, hbody⟩ := bind_ok hrun
    exact ⟨name, descriptors, start, _, liftError_eq_ok.1 hname, liftError_eq_ok.1 hdescriptors,
      lift_eq_ok.1 hseek, hbody, rfl⟩
  · cases h

/-- The name is read back. -/
theorem peekName_ok {entry : Entry} {payload : Bytes}
    (hnul : (0 : UInt8) ∉ ofString artifact.name) (hpart : PartAt payload 0 artifact.nameBytes)
    (hoffset : entry.nameOffset = 0)
    (hsize : entry.nameSize.toNat = (ofString artifact.name).size + 1) :
    Payload.peekName payload entry = .ok artifact.name := by
  have hname := (partAt_append.1 hpart).1
  have hrun : Cursor.runAt payload entry.nameOffset.toNat Cursor.readCString =
      .ok artifact.name := by
    rw [hoffset]
    exact runAt_of_reads (Nat.zero_le _) (spells_readCString hnul hname)
  refine except_bind_eq_ok.2 ⟨_, hrun, ?_⟩
  simp only [hsize, ne_eq, not_true, if_false]
  rfl

/-- **The name of an artifact that was written is read from its payload.** -/
theorem peekName_of_encodes {layout : PayloadLayout} {start : Nat}
    (h : context.Encodes artifact encoded)
    (hlayout : Describes layout start artifact (artifact.payload encoded)) (offline : Bool) :
    Payload.peekName (artifact.payload encoded) (Session.entryOf offline artifact layout)
      = .ok artifact.name := by
  obtain ⟨hfront, -, -⟩ := Artifact.partAt_codeBytes (partAt_payload artifact encoded)
  exact peekName_ok h.name (partAt_append.1 hfront).1 hlayout.nameOffset hlayout.nameSize

/-- The descriptors of an artifact that was written are read from its payload. -/
theorem peekSections_of_encodes {layout : PayloadLayout} {start : Nat}
    (h : context.Encodes artifact encoded)
    (hlayout : Describes layout start artifact (artifact.payload encoded)) (offline : Bool) :
    Payload.peekSections (artifact.payload encoded) (Session.entryOf offline artifact layout)
      = .ok artifact.descriptors :=
  Artifact.peekSections_ok h.sections (partAt_payload artifact encoded) hlayout.codeOffset
    hlayout.codeSize

/-- What stands behind the descriptors starts where they end. -/
theorem bodyStart_of_describes {layout : PayloadLayout} {start : Nat} {payload : Bytes}
    (hlayout : Describes layout start artifact payload) (offline : Bool) :
    (Session.entryOf offline artifact layout).codeOffset.toNat + 3 * SectionDescriptor.encodedSize
      = artifact.frontBytes.size := by
  rw [Artifact.size_frontBytes, ← hlayout.codeOffset]
  rfl

theorem size_frontBytes_le (artifact : Artifact) (encoded : Encoded) :
    artifact.frontBytes.size ≤ (artifact.payload encoded).size := by
  have hle := (Artifact.partAt_codeBytes (partAt_payload artifact encoded)).1.le
  omega

/-- **The payload of an artifact is read back, to its end, as the artifact rebound.** -/
theorem readPayload_of_encodes {layout : PayloadLayout} {start : Nat}
    (hsound : context.process.symbols.Sound)
    (hvalues : ∀ value ∈ artifact.values, context.Restores value)
    (h : context.Encodes artifact encoded)
    (hlayout : Describes layout start artifact (artifact.payload encoded)) (offline : Bool) :
    context.readPayload (artifact.payload encoded) (Session.entryOf offline artifact layout)
      = .ok (context.rebind artifact, (artifact.payload encoded).size) := by
  have hname := peekName_of_encodes h hlayout offline
  have hdescriptors := peekSections_of_encodes h hlayout offline
  have hbody : Reads (do
      (Cursor.seek artifact.frontBytes.size : Reading Unit)
      context.readBody (Session.entryOf offline artifact layout) artifact.name
        artifact.descriptors :
        Decoding Artifact) (artifact.payload encoded) 0 (context.rebind artifact)
      (artifact.payload encoded).size :=
    (reads_seek (size_frontBytes_le artifact encoded)).lift.bind
      (reads_readBody hsound hvalues h rfl rfl rfl)
  obtain ⟨hle, hrun⟩ := hbody (Nat.zero_le _)
  refine except_bind_eq_ok.2 ⟨_, liftError_eq_ok.2 hname, ?_⟩
  refine except_bind_eq_ok.2 ⟨_, liftError_eq_ok.2 hdescriptors, ?_⟩
  simp only [bodyStart_of_describes hlayout, Cursor.ofBytes]
  rw [hrun]

/-- **What was written of an artifact is its payload, and there.** -/
theorem payload_of_writeArtifact {arena after : Arena} {layout : PayloadLayout}
    (h : context.writeArtifact artifact arena = .ok layout after) :
    ∃ encoded, context.Encodes artifact encoded ∧
      after.bytes.slice? layout.offset layout.size = some (artifact.payload encoded) ∧
      Describes layout (alignUp arena.position) artifact (artifact.payload encoded) := by
  obtain ⟨encoded, hencodes, hbytes, hlayout⟩ := writeArtifact_ok h
  have hpart : PartAt after.bytes layout.offset (artifact.payload encoded) := by
    refine ⟨arena.bytes ++ zeros (paddingAfter arena.position), #[], ?_, ?_⟩
    · rw [hbytes, Array.append_empty]
    · rw [hlayout.offset, Array.size_append, size_zeros, alignUp_eq, Arena.position]
  exact ⟨encoded, hencodes, by rw [hlayout.size]; exact hpart.slice?, hlayout⟩

/-- **What was written of an artifact comes back in the same process**: the payload is there, and
    reading it with its entry uses all of it and answers the artifact rebound, provided that every
    embedded value is found again by what was written for it. -/
theorem readPayload_ok {arena after : Arena} {layout : PayloadLayout}
    (hreached : context.process.symbols.Reached)
    (h : context.writeArtifact artifact arena = .ok layout after)
    (hvalues : ∀ value ∈ artifact.values, context.Restores value) (offline : Bool) :
    ∃ payload, after.bytes.slice? layout.offset layout.size = some payload ∧
      context.readPayload payload (Session.entryOf offline artifact layout)
        = .ok (context.rebind artifact, layout.size) := by
  obtain ⟨encoded, hencodes, hslice, hlayout⟩ := payload_of_writeArtifact h
  refine ⟨artifact.payload encoded, hslice, ?_⟩
  rw [hlayout.size]
  exact readPayload_of_encodes hreached.sound hvalues hencodes hlayout offline

/-- A process that has interned one string, and knows nothing else. -/
def internedOnce : LiveProcess where
  symbols := (SymbolTable.empty ⟨4096, 256⟩ fun serial => UInt64.ofNat (36864 + 16 * serial)).after
    [.interned 20480 ⟨#[104, 105], by simp⟩]
  image := .absent
  resolver := ⟨fun _ => none, fun _ => none, fun _ => none, fun _ _ => none, fun _ _ _ => none,
    fun _ => none⟩

/-- A stub that calls itself, points at that string, and holds the mirror of a primitive type. -/
def selfCallingStub : Artifact :=
  { Artifact.method "stub" 1 0 with
    kind := .stub
    sections := ⟨.empty .consts, ⟨.insts, 8192, zeros 16, 16,
      [⟨.runtimeCall, 4, 0, .address 8196⟩, ⟨.externalWord, 8, 0, .address 20480⟩,
       ⟨.metadata, 8, 0, .immediate (.primitive .int)⟩]⟩, .empty .stubs⟩
    references := [.null]
    dependencies := #[1] }

theorem readPayload_selfCallingStub :
    ∃ layout after payload,
      Context.writeArtifact ⟨internedOnce, false⟩ selfCallingStub (.ofCapacity 512) =
        .ok layout after ∧
      after.bytes.slice? layout.offset layout.size = some payload ∧
      Context.readPayload ⟨internedOnce, false⟩ payload
        (Session.entryOf false selfCallingStub layout)
        = .ok (Context.rebind ⟨internedOnce, false⟩ selfCallingStub, layout.size) ∧
      (Context.rebind ⟨internedOnce, false⟩ selfCallingStub).sections.insts.relocations =
        [⟨.runtimeCall, 4, 0, .selfReference⟩, ⟨.externalWord, 8, 0, .address 36864⟩,
         ⟨.metadata, 8, 0, .immediate (.primitive .int)⟩] := by
  have hwritten : (match Context.writeArtifact ⟨internedOnce, false⟩ selfCallingStub
      (.ofCapacity 512) with | .ok _ _ => true | .error _ _ => false) = true := by
    decide +kernel
  cases hrun : Context.writeArtifact ⟨internedOnce, false⟩ selfCallingStub (.ofCapacity 512) with
  | error fault after =>
    rw [hrun] at hwritten
    cases hwritten
  | ok layout after =>
    have hvalues : ∀ value ∈ selfCallingStub.values,
        Context.Restores ⟨internedOnce, false⟩ value := by
      intro value hmem
      have : value = .null ∨ value = .primitive .int := by
        simpa [selfCallingStub, Artifact.values, Sections.toList, CodeSection.constants,
          CodeSection.empty] using hmem
      rcases this with rfl | rfl
      · exact ⟨_, rfl, rfl⟩
      · exact ⟨_, rfl, rfl⟩
    obtain ⟨payload, hslice, hread⟩ := readPayload_ok ⟨_, _, _, rfl⟩ hrun hvalues false
    exact ⟨layout, after, payload, rfl, hslice, hread, by decide +kernel⟩

/-- The stub is written, and what was written is read. -/
theorem selfCallingStub_isRead :
    ∃ layout after payload,
      Context.writeArtifact ⟨internedOnce, false⟩ selfCallingStub (.ofCapacity 512) =
        .ok layout after ∧
      after.bytes.slice? layout.offset layout.size = some payload ∧
      ∃ artifact, Context.readArtifact ⟨internedOnce,
        false⟩ payload (Session.entryOf false selfCallingStub layout)
        = .ok artifact := by
  have hreadable : (match Context.writeArtifact ⟨internedOnce, false⟩ selfCallingStub
      (.ofCapacity 512) with
      | .ok layout after => ((after.bytes.slice? layout.offset layout.size).map fun payload =>
          (Context.readArtifact ⟨internedOnce, false⟩ payload
            (Session.entryOf false selfCallingStub layout)).isOk) == some true
      | .error _ _ => false) = true := by
    decide +kernel
  cases hrun : Context.writeArtifact ⟨internedOnce, false⟩ selfCallingStub (.ofCapacity 512) with
  | error fault after =>
    rw [hrun] at hreadable
    cases hreadable
  | ok layout after =>
    obtain ⟨encoded, -, hslice, -⟩ := payload_of_writeArtifact hrun
    simp only [hrun, hslice, Option.map_some, beq_iff_eq, Option.some.injEq] at hreadable
    refine ⟨layout, after, _, rfl, hslice, ?_⟩
    cases hread : Context.readArtifact ⟨internedOnce, false⟩ (selfCallingStub.payload encoded)
        (Session.entryOf false selfCallingStub layout) with
    | ok read => exact ⟨read, rfl⟩
    | error fault =>
      rw [hread] at hreadable
      cases hreadable

end Context

end CodeVault
