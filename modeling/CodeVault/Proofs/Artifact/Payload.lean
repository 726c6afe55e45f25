import CodeVault.Proofs.Artifact.Sections

/-!
# The payload of an artifact

* `Artifact.payload` is the payload of an artifact, given what stands for its addresses and values;
* **a payload is written at a boundary behind everything that was written before, or nothing of it
  stays** (`writeArtifact_ok`, `preserves_writeArtifact`).
-/

namespace CodeVault

open Arena Bytes Cursor Container

/-! ## 1. Payloads -/

/-- What stands for the addresses and values of an artifact: auxiliary words and constants for the
    relocations of each section, and the references of the table. -/
structure Encoded where
  auxiliaries : Sections (List Context.Auxiliary)
  references : List Reference

namespace Artifact

/-- The dependencies as they are written; only compiled methods have any. -/
def dependencyBytes (artifact : Artifact) : Bytes :=
  if artifact.kind = .code then blobBytes artifact.dependencies else #[]

/-- The payload up to the relocations. -/
def linkedBytes (artifact : Artifact) (encoded : Encoded) : Bytes :=
  padded artifact.codeBytes ++ (ofU32 (UInt32.ofNat artifact.references.length) ++
    (Context.relocationBytes artifact.sections.consts encoded.auxiliaries.consts ++
      (Context.relocationBytes artifact.sections.insts encoded.auxiliaries.insts ++
        Context.relocationBytes artifact.sections.stubs encoded.auxiliaries.stubs)))

/-- The payload. -/
def payload (artifact : Artifact) (encoded : Encoded) : Bytes :=
  padded (artifact.linkedBytes encoded) ++ (artifact.tableBytes ++
    (join (encoded.references.map Reference.encode) ++ artifact.dependencyBytes))

end Artifact

namespace Context

variable {context : Context} {artifact : Artifact} {arena after : Arena}

/-- Everything that is known of an artifact and what stands for its addresses and values once its
    payload was written. -/
structure Encodes (context : Context) (artifact : Artifact) (encoded : Encoded) : Prop where
  name : (0 : UInt8) ∉ ofString artifact.name
  sections : artifact.SectionsFit
  count_lt : artifact.references.length < wordSpace
  relocations : ∀ kind, context.CodesRelocations artifact.references.length
    (artifact.sections.get kind) (encoded.auxiliaries.get kind)
  tables : Spells artifact.tableBytes Artifact.readTables artifact.tables
  references : List.Forall₂ (fun value reference => context.encodeValue value = .ok reference)
    artifact.references encoded.references
  legible : ∀ reference ∈ encoded.references, reference.Legible
  dependencies : artifact.kind = .code →
    Spells (Artifact.blobBytes artifact.dependencies) readBlob artifact.dependencies

/-! ## 2. Writing -/

theorem writeReferences_ok {values : List EmbeddedValue} {u : Unit}
    (h : context.writeReferences values arena = .ok u after) :
    ∃ references,
      List.Forall₂ (fun value reference => context.encodeValue value = .ok reference) values
        references ∧
      (∀ reference ∈ references, reference.Legible) ∧
      after = arena.extend (join (references.map Reference.encode)) := by
  induction values generalizing arena with
  | nil =>
    obtain ⟨-, rfl⟩ := pure_ok h
    exact ⟨[], .nil, by simp, by simp⟩
  | cons value values ih =>
    unfold writeReferences at h
    cases hencode : context.encodeValue value with
    | error cause =>
      simp only [hencode] at h
      obtain ⟨_, _, hthrow, -⟩ := bind_ok h
      cases hthrow
    | ok reference =>
      simp only [hencode] at h
      obtain ⟨_, _, hwrite, hrest⟩ := bind_ok h
      obtain ⟨rfl, hlegible⟩ := reference.carries_write hwrite
      obtain ⟨references, hreferences, hlegibles, rfl⟩ := ih hrest
      exact ⟨reference :: references, .cons hencode hreferences,
        List.forall_mem_cons.2 ⟨hlegible, hlegibles⟩, by simp⟩

/-- The relocations of the three sections. -/
theorem writeAllRelocations_ok {u : Sections Unit}
    (h : artifact.sections.mapM (context.writeRelocations artifact.references.length) arena
      = .ok u after) :
    ∃ auxiliaries : Sections (List Auxiliary),
      (∀ kind, context.CodesRelocations artifact.references.length (artifact.sections.get kind)
        (auxiliaries.get kind)) ∧
      after = arena.extend (relocationBytes artifact.sections.consts auxiliaries.consts ++
        (relocationBytes artifact.sections.insts auxiliaries.insts ++
          relocationBytes artifact.sections.stubs auxiliaries.stubs)) := by
  obtain ⟨_, _, hconsts, hinsts, hstubs⟩ := Sections.mapM_ok h
  obtain ⟨consts, hcoding1, rfl⟩ := writeRelocations_ok hconsts
  obtain ⟨insts, hcoding2, rfl⟩ := writeRelocations_ok hinsts
  obtain ⟨stubs, hcoding3, rfl⟩ := writeRelocations_ok hstubs
  refine ⟨⟨consts, insts, stubs⟩, fun kind => ?_, ?_⟩
  · cases kind <;> assumption
  · simp only [extend_extend, Array.append_assoc]

/-- Where a payload is, and what its entry will say of it. -/
structure Describes (layout : PayloadLayout) (start : Nat) (artifact : Artifact) (payload : Bytes) :
    Prop where
  offset : layout.offset = start
  size : layout.size = payload.size
  nameOffset : layout.nameOffset = 0
  nameSize : layout.nameSize.toNat = (ofString artifact.name).size + 1
  codeOffset : layout.codeOffset.toNat = artifact.nameBytes.size
  codeSize : layout.codeSize.toNat = artifact.codeSize

/-- A length that is written down. -/
theorem length32_ok {part : Part} {length : Nat} {word : UInt32}
    (h : (ofOutcome (liftError (fun e => e) (Artifact.length32 part length)) :
      Encoding UInt32) arena = .ok word after) : word.toNat = length ∧ arena = after := by
  obtain ⟨hlength, rfl⟩ := ofOutcome_eq_ok.1 h
  obtain ⟨hlt, rfl⟩ := Artifact.length32_eq_ok.1 (liftError_eq_ok.1 hlength)
  exact ⟨toNat_ofNat_of_lt_wordSpace hlt, rfl⟩

/-- **What is written of an artifact at a boundary is its payload.** -/
theorem writePayload_ok {layout : PayloadLayout} (hstart : arena.position % dataAlignment = 0)
    (h : context.writePayload artifact arena.position arena = .ok layout after) :
    ∃ encoded, context.Encodes artifact encoded ∧
      after.bytes = arena.bytes ++ artifact.payload encoded ∧
      Describes layout arena.position artifact (artifact.payload encoded) := by
  obtain ⟨⟨nameAt, nameSize⟩, named, hname, h⟩ := bind_ok h
  obtain ⟨hnul, rfl, rfl, hnamed⟩ := writeCString_ok (lift_eq_ok.1 hname)
  obtain ⟨_, aligned, halign, h⟩ := bind_ok h
  have haligned := align_since hstart (by rw [hnamed, bytes_extend]) (lift_eq_ok.1 halign)
  obtain ⟨_, _, hget, h⟩ := bind_ok h
  cases hget
  obtain ⟨codeOffset, _, hlink, h⟩ := bind_ok h
  obtain ⟨hcodeOffset, rfl⟩ := length32_ok hlink
  have hbytes : aligned.bytes = arena.bytes ++ artifact.nameBytes := by
    rw [haligned, hnamed, extend_extend, bytes_extend, Artifact.nameBytes, padded]
  obtain ⟨places, described, hdescriptors, h⟩ := bind_ok h
  obtain ⟨_, coded, hsections, h⟩ := bind_ok h
  obtain ⟨hfit, hcoded⟩ := Artifact.writeCode_ok hstart hbytes hdescriptors hsections
  obtain ⟨_, padded1, halign1, h⟩ := bind_ok h
  have hpadded1 := align_since hstart hcoded (lift_eq_ok.1 halign1)
  obtain ⟨_, counted, hcount, h⟩ := bind_ok h
  obtain ⟨hcountLt, hcounted⟩ := Artifact.writeCount_ok (lift_eq_ok.1 hcount)
  obtain ⟨_, linked, hrelocations, h⟩ := bind_ok h
  obtain ⟨auxiliaries, hcodes, hlinked⟩ := writeAllRelocations_ok hrelocations
  obtain ⟨_, padded2, halign2, h⟩ := bind_ok h
  obtain ⟨_, tabled, htables, h⟩ := bind_ok h
  obtain ⟨htabled, hspells⟩ := artifact.carries_writeTables (lift_eq_ok.1 htables)
  obtain ⟨_, referred, hreferences, h⟩ := bind_ok h
  obtain ⟨references, hencodes, hlegible, hreferred⟩ :=
    writeReferences_ok (lift_eq_ok.1 hreferences)
  have hlinkedBytes : linked.bytes =
      arena.bytes ++ artifact.linkedBytes ⟨auxiliaries, references⟩ := by
    rw [hlinked, hcounted, hpadded1, bytes_extend, bytes_extend, bytes_extend, hcoded,
      Artifact.linkedBytes, padded]
    simp only [Array.append_assoc]
  have hpadded2 := align_since hstart hlinkedBytes (lift_eq_ok.1 halign2)
  have hreferredBytes : referred.bytes = arena.bytes ++ (padded (artifact.linkedBytes
      ⟨auxiliaries, references⟩) ++
        (artifact.tableBytes ++ join (references.map Reference.encode))) := by
    rw [hreferred, htabled, hpadded2, bytes_extend, bytes_extend, bytes_extend,
      hlinkedBytes, padded]
    simp only [Array.append_assoc]
  obtain ⟨last, hdependencies, h⟩ := when_ok h
  have hlast : last.bytes = arena.bytes ++ artifact.payload ⟨auxiliaries, references⟩ ∧
      (artifact.kind = .code →
        Spells (Artifact.blobBytes artifact.dependencies) readBlob artifact.dependencies) := by
    rcases hdependencies with ⟨hkind, hblob⟩ | ⟨hkind, rfl⟩
    · obtain ⟨rfl, hspells⟩ := Artifact.carries_writeBlob _ _ (lift_eq_ok.1 hblob)
      refine ⟨?_, fun _ => hspells⟩
      rw [bytes_extend, hreferredBytes, Artifact.payload, Artifact.dependencyBytes, if_pos hkind]
      simp only [Array.append_assoc]
    · refine ⟨?_, fun h => absurd h hkind⟩
      rw [hreferredBytes, Artifact.payload, Artifact.dependencyBytes, if_neg hkind,
        Array.append_empty]
  obtain ⟨_, _, hget, h⟩ := bind_ok h
  cases hget
  obtain ⟨nameOffset, _, hlink, h⟩ := bind_ok h
  obtain ⟨hnameOffset, rfl⟩ := length32_ok hlink
  obtain ⟨nameSize, _, hlink, h⟩ := bind_ok h
  obtain ⟨hnameSize, rfl⟩ := length32_ok hlink
  obtain ⟨codeSize, _, hlink, h⟩ := bind_ok h
  obtain ⟨hcodeSize, rfl⟩ := length32_ok hlink
  obtain ⟨rfl, rfl⟩ := pure_ok h
  refine ⟨⟨auxiliaries, references⟩,
    ⟨hnul, hfit, hcountLt, hcodes, hspells, hencodes, hlegible, hlast.2⟩, hlast.1, rfl, ?_, ?_,
    hnameSize, ?_, hcodeSize⟩
  · rw [position, position, hlast.1, Array.size_append, Nat.add_sub_cancel_left]
  · exact UInt32.toNat_inj.1 (by rw [hnameOffset, Nat.sub_self]; rfl)
  · rw [hcodeOffset, position, position, hbytes, Array.size_append, Nat.add_sub_cancel_left]

/-- **An artifact that is written stands at the next boundary behind everything written before.** -/
theorem writeArtifact_ok {layout : PayloadLayout}
    (h : context.writeArtifact artifact arena = .ok layout after) :
    ∃ encoded, context.Encodes artifact encoded ∧
      after.bytes = arena.bytes ++ zeros (paddingAfter arena.position) ++ artifact.payload encoded ∧
      Describes layout (alignUp arena.position) artifact (artifact.payload encoded) := by
  obtain ⟨_, aligned, halign, h⟩ := bind_ok h
  have haligned := align_ok (lift_eq_ok.1 halign)
  have hposition : aligned.position = alignUp arena.position := by
    rw [haligned, position_extend, size_zeros, alignUp_eq]
  have hbytes : aligned.bytes = arena.bytes ++ zeros (paddingAfter arena.position) := by
    rw [haligned, bytes_extend]
  rw [← hposition, ← hbytes]
  have hstart : aligned.position % dataAlignment = 0 := by rw [hposition, alignUp_mod]
  cases hrun : context.writePayload artifact aligned.position aligned with
  | ok written last =>
    simp only [hrun] at h
    cases h
    exact writePayload_ok hstart hrun
  | error fault last =>
    simp only [hrun] at h
    cases fault <;> cases h

/-! ## 3. What stays -/

variable {holds : Arena → Prop} {edge : Nat}

theorem preserves_writeReferences (h : Outlasts holds edge) (values : List EmbeddedValue) :
    Preserves holds (context.writeReferences values) := by
  induction values with
  | nil => exact preserves_pure _
  | cons value values ih =>
    unfold writeReferences
    cases context.encodeValue value with
    | ok reference => exact (reference.preserves_write h).bind fun _ => ih
    | error cause => exact (preserves_throw _).bind fun _ => ih

theorem preserves_writeSections (h : Outlasts holds edge) {places : Sections Nat} (start : Nat)
    (hplaces : ∀ kind, edge ≤ places.get kind) :
    Preserves holds ((artifact.sections.zip places).mapM (Artifact.writeSection start)) := by
  refine Sections.preserves_mapM fun kind => ?_
  have hplace := hplaces kind
  cases kind <;> exact Artifact.preserves_writeSection h _ hplace

theorem preserves_writePayload (h : Outlasts holds edge) (start : Nat) :
    Preserves holds (context.writePayload artifact start) := by
  refine (h.writeCString _).lift.bind fun named => h.align.lift.bind fun _ => ?_
  refine preserves_get.bind fun _ => (preserves_ofOutcome _).bind fun _ => ?_
  refine Preserves.bind_ok (Sections.preserves_mapM fun _ =>
    (Artifact.preserves_writeDescriptor h _).lift)
      fun before middle places hbefore hplaces hmiddle => ?_
  -- The places that are written over later are behind what was written before.
  have hsections : Preserves holds
      ((artifact.sections.zip places).mapM (Artifact.writeSection start)) :=
    preserves_writeSections h start fun kind =>
      Nat.le_trans (h.edge_le hbefore) (Artifact.place_of_writeDescriptors hplaces kind).1
  refine (hsections.bind fun _ => h.align.lift.bind fun _ => ?_) hmiddle
  refine (Artifact.preserves_writeCount h _ _).lift.bind fun _ => ?_
  refine (Sections.preserves_mapM fun _ => preserves_writeRelocations h _ _).bind fun _ => ?_
  refine h.align.lift.bind fun _ => (artifact.preserves_writeTables h).lift.bind fun _ => ?_
  refine (preserves_writeReferences h _).lift.bind fun _ => ?_
  have htail : ∀ k : Unit → Encoding PayloadLayout, (∀ u, Preserves holds (k u)) → Preserves holds
      (if artifact.kind = .code then
        (liftM (Artifact.writeBlob .dependencies artifact.dependencies) : Encoding Unit) >>= k
      else k ()) :=
    fun k hk => preserves_ite ((Artifact.preserves_writeBlob h _ _).lift.bind hk) (hk ())
  refine htail _ fun _ => preserves_get.bind fun _ => ?_
  refine (preserves_ofOutcome _).bind fun _ => (preserves_ofOutcome _).bind fun _ => ?_
  exact (preserves_ofOutcome _).bind fun _ => preserves_pure _

/-- **Writing an artifact preserves what outlasts all writing**, whatever comes of it. -/
theorem preserves_writeArtifact (h : Outlasts holds edge) :
    Preserves holds (context.writeArtifact artifact) := by
  refine h.align.lift.bind fun _ arena harena => ?_
  have hkept : holds (stateOf (context.writePayload artifact arena.position arena)) :=
    preserves_writePayload h arena.position harena
  cases hrun : context.writePayload artifact arena.position arena with
  | ok layout after =>
    rw [hrun] at hkept
    simp only [hrun]
    exact hkept
  | error fault after =>
    rw [hrun] at hkept
    simp only [hrun]
    cases fault with
    | error e => exact h.truncate hkept (h.edge_le harena)
    | halt why => exact hkept

end Context

end CodeVault
