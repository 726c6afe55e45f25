import CodeVault.Proofs.Artifact.Straying
import CodeVault.Proofs.Context.Shared

/-!
# Sums of addresses

Three sums of addresses are taken: of a section and an offset in it, in writing, and of the anchor
or the base image and a distance, in reading. None of them is asked for its size before.

* a process is in range (`LiveProcess.InRange`) if every distance that a payload may hold leads to
  an address. **Only a process that is not is stopped in reading** (`forSum_of_readArtifact`), and
  there is a payload that stops it (`exists_halts_of_not_inRange`): one that was written where
  anchor and image are low;
* **a sum stops the process in writing where a call strays, in reading where a distance leads
  nowhere, and nowhere else** (`sums_of_addresses`).
-/

namespace CodeVault

open Arena Bytes Container Cursor

variable {ε α β : Type}

/-! ## 1. What stops the process in reading -/

/-- Every distance that a payload may hold leads to an address. -/
structure LiveProcess.InRange (process : LiveProcess) : Prop where
  anchor : process.symbols.anchor.start.toNat + maxAnchorDistance < addressSpace
  image : process.image.isMapped = true →
    process.image.origin.toNat + (wordSpace - 1) < addressSpace

namespace Context

variable {context : Context}

theorem forSum_of_after? {start : Address} {distance : Nat} {fault : Fault ε}
    (h : orOverflow (start.after? distance) = .error fault) :
    fault.ForSum (addressSpace ≤ start.toNat + distance) := by
  rw [← Address.after?_eq_none]
  cases hsum : start.after? distance with
  | some addr =>
    rw [hsum] at h
    cases h
  | none =>
    rw [hsum] at h
    cases h
    exact ⟨rfl, rfl⟩

theorem forSum_of_addressOf {word : UInt32} (hword : word ≠ relocationMarker)
    {fault : Fault SymbolError}
    (h : context.process.symbols.addressOf (Symbol.ofRaw word) = .error fault) :
    fault.ForSum (¬context.process.InRange) := by
  unfold Symbol.ofRaw at h
  split at h
  · have h : orOverflow (context.process.symbols.anchor.start.after? (word.toNat - anchorBase)) =
        .error fault := h
    refine (forSum_of_after? h).mono fun hbehind hinRange => ?_
    have hlast : word.toNat ≠ wordSpace - 1 := fun heq => hword (UInt32.toNat_inj.1 heq)
    have hlt : word.toNat < wordSpace := word.toNat_lt
    have hanchor := hinRange.anchor
    simp only [maxAnchorDistance] at hanchor
    omega
  · rename_i hlow
    simp only [SymbolTable.addressOf, if_neg hlow] at h
    split at h
    · split at h <;> cases h
      trivial
    · exact (isError_of_liftError h).forSum

theorem forSum_of_decodeValue {reference : Reference} {fault : Fault LookupFailure}
    (h : context.decodeValue reference = .error fault) :
    fault.ForSum (¬context.process.InRange) := by
  have hshared : ∀ resident distance, reference = Resident.reference resident distance →
      fault.ForSum (¬context.process.InRange) := by
    rintro resident distance rfl
    rw [decodeValue_shared, except_map_eq_error, sharedAddress_eq_error] at h
    obtain ⟨-, rfl⟩ | ⟨hmapped, hbehind, rfl⟩ := h
    · trivial
    · refine ⟨rfl, fun hinRange => ?_⟩
      have hlt : distance.toNat < wordSpace := distance.toNat_lt
      have himage := hinRange.image hmapped
      omega
  cases reference with
  | null | noData | primitive | systemLoader | platformLoader => cases h
  | sharedType distance => exact hshared .type distance rfl
  | sharedMethod distance => exact hshared .method distance rfl
  | sharedString | type | method | string => exact (isError_of_liftError h).forSum

theorem refuses_readValue :
    Refuses (Fault.ForSum (¬context.process.InRange)) context.readValue := by
  refine (refuses_lift _).bind fun reference => ?_
  cases hvalue : context.decodeValue reference with
  | ok value => exact refuses_pure value
  | error fault => exact refuses_throw ((forSum_of_decodeValue hvalue).map _)

theorem refuses_bindValue (referenceCount : Nat) (kind : RelocationKind) (word : UInt32) :
    Refuses (Fault.ForSum (¬context.process.InRange))
      (context.bindValue referenceCount kind word) := by
  unfold bindValue
  cases kind.operand with
  | nothing => exact refuses_pure _
  | internal => exact refuses_pure _
  | target =>
    dsimp only
    split
    · exact refuses_pure _
    · rename_i hword
      cases haddr : context.process.symbols.addressOf (Symbol.ofRaw word) with
      | ok addr => exact refuses_pure _
      | error fault => exact refuses_throw ((forSum_of_addressOf hword haddr).map _)
  | constant =>
    refine refuses_ite (refuses_readValue.bind fun _ => refuses_pure _)
      (refuses_ite (refuses_pure _) ?_)
    exact refuses_throw trivial

theorem refuses_bindAll (referenceCount : Nat) (bindings : List Binding) :
    Refuses (Fault.ForSum (¬context.process.InRange))
      (context.bindAll referenceCount bindings) := by
  induction bindings with
  | nil => exact refuses_pure _
  | cons binding bindings ih =>
    exact (refuses_bindValue _ _ _).bind fun _ => ih.bind fun _ => refuses_pure _

theorem refuses_readReferences (count : Nat) :
    Refuses (Fault.ForSum (¬context.process.InRange)) (context.readReferences count) := by
  induction count with
  | zero => exact refuses_pure _
  | succ count ih => exact refuses_readValue.bind fun _ => ih.bind fun _ => refuses_pure _

theorem refuses_readRelocations (referenceCount sectionSize : Nat) :
    Refuses (Fault.ForSum (¬context.process.InRange))
      (context.readRelocations referenceCount sectionSize) := by
  rw [readRelocations_eq]
  exact (refuses_lift _).bind fun _ => (refuses_bindAll _ _).bind fun _ => refuses_pure _

theorem refuses_readBody (entry : Entry) (name : String)
    (descriptors : Sections SectionDescriptor) :
    Refuses (Fault.ForSum (¬context.process.InRange))
      (context.readBody entry name descriptors) := by
  refine (Sections.refuses_mapM fun _ => refuses_lift (Artifact.readSection entry _)).bind
    fun _ => ?_
  refine (refuses_lift _).bind fun _ => (refuses_lift _).bind fun _ => ?_
  refine (Sections.refuses_mapM fun _ => ?_).bind fun _ => ?_
  · exact (refuses_readRelocations _ _).bind fun _ => refuses_pure _
  refine (refuses_lift _).bind fun _ => (refuses_lift _).bind fun _ =>
    (refuses_readReferences _).bind fun _ => ?_
  refine refuses_ite ((refuses_lift _).bind fun _ => refuses_pure _) ?_
  rw [pure_bind]
  exact refuses_pure _

/-- **Reading stops the process only where a distance does not lead to an address.** -/
theorem forSum_of_readArtifact {payload : Bytes} {entry : Entry} {fault : Fault CacheError}
    (h : context.readArtifact payload entry = .error fault) :
    fault.ForSum (¬context.process.InRange) := by
  have h := except_map_eq_error.1 h
  rcases except_bind_eq_error.1 h with h | ⟨name, -, h⟩
  · exact (isError_of_liftError h).forSum
  rcases except_bind_eq_error.1 h with h | ⟨descriptors, -, h⟩
  · exact (isError_of_liftError h).forSum
  dsimp only at h
  split at h
  · cases h
  · rename_i hrun
    cases h
    exact (refuses_lift (Cursor.seek _)).bind (fun _ => refuses_readBody entry name descriptors)
      hrun

end Context

/-! ## 2. Payloads that stop the process -/

/-- In these bytes, a sum stops the process in an action from there on. -/
def Halts (action : Decoding α) (data : Bytes) (start : Nat) : Prop :=
  ∀ h : start ≤ data.size, ∃ left, action ⟨data, start, h⟩ = .error (.halt .overflow) left

section Halts

variable {x : Decoding α} {f : α → Decoding β} {data part : Bytes} {start middle : Nat} {a : α}

theorem Halts.bind (hx : Halts x data start) : Halts (x >>= f) data start := by
  intro h
  obtain ⟨left, hrun⟩ := hx h
  exact ⟨left, bind_of_error hrun⟩

theorem halts_behind (hx : Reads x data start a middle) (hf : Halts (f a) data middle) :
    Halts (x >>= f) data start := by
  intro h
  obtain ⟨hmiddle, hfirst⟩ := hx h
  obtain ⟨left, hrest⟩ := hf hmiddle
  exact ⟨left, by rw [bind_of_ok hfirst, hrest]⟩

theorem Cursor.Leads.halts (h : Leads part x (throw (.halt .overflow)))
    (hpart : PartAt data start part) :
    Halts x data start := by
  intro hstart
  obtain ⟨hfinish, hrun⟩ := h hpart hstart
  exact ⟨_, hrun⟩

end Halts

namespace Context

variable {context writer : Context} {artifact : Artifact} {encoded : Encoded} {referenceCount : Nat}
  {relocation : Relocation} {others : List Relocation} {auxiliary : Auxiliary}
  {coding : List Auxiliary}

theorem leads_readValue {reference : Reference} {fault : Fault LookupFailure}
    (hlegible : reference.Legible) (h : context.decodeValue reference = .error fault) :
    Leads reference.encode context.readValue (throw (fault.map .lookupFailed)) := by
  intro data pos hpart hpos
  obtain ⟨hfinish, hrun⟩ := hlegible.lift hpart hpos
  refine ⟨hfinish, (bind_of_ok hrun).trans ?_⟩
  simp only [h]

/-- Relocations are not bound behind one that cannot be bound. -/
theorem leads_readRelocations {part : CodeSection} {fault : Fault CacheError}
    (hpart : part.relocations = relocation :: others)
    (h : writer.CodesRelocations referenceCount part (auxiliary :: coding))
    (hbind : Leads (constantBytes auxiliary)
      (context.bindValue referenceCount relocation.kind auxiliary.1) (throw fault)) :
    Leads (bindingBytes part (auxiliary :: coding) ++ constantBytes auxiliary)
      (context.readRelocations referenceCount part.bytes.size) (throw fault) := by
  rw [readRelocations_eq]
  refine (spells_readBindings h).lift.bind_leads (Leads.bind_throw ?_ _)
  rw [hpart]
  exact hbind.bind_throw _

/-- **A payload stops the process that reads it, where the first relocation of its constants does
    so.** -/
theorem halts_readArtifact {layout : PayloadLayout} {start : Nat}
    (h : writer.Encodes artifact encoded)
    (hlayout : Describes layout start artifact (artifact.payload encoded))
    (hpart : artifact.sections.consts.relocations = relocation :: others)
    (hcoding : encoded.auxiliaries.consts = auxiliary :: coding)
    (hbind : Leads (constantBytes auxiliary)
      (context.bindValue artifact.references.length relocation.kind auxiliary.1)
      (throw (.halt .overflow))) :
    context.readArtifact (artifact.payload encoded) (Session.entryOf false artifact layout) =
      .error (.halt .overflow) := by
  obtain ⟨halign, hcount, hrelocations, -, -, -, -⟩ := payload_parts h
  have hcodes : writer.CodesRelocations artifact.references.length artifact.sections.consts
      (auxiliary :: coding) :=
    hcoding ▸ h.relocations .consts
  have hfirst : PartAt (artifact.payload encoded) (alignUp artifact.codeBytes.size + 4)
      (bindingBytes artifact.sections.consts (auxiliary :: coding) ++ constantBytes auxiliary) := by
    have hconsts : PartAt _ _
        (relocationBytes artifact.sections.consts encoded.auxiliaries.consts) :=
      (partAt_append.1 hrelocations).1
    rw [hcoding, relocationBytes_eq, List.map_cons, join_cons, ← Array.append_assoc] at hconsts
    exact (partAt_append.1 hconsts).1
  have hbody : Halts (context.readBody (Session.entryOf false artifact layout) artifact.name
      artifact.descriptors)
      (artifact.payload encoded) artifact.frontBytes.size := by
    unfold readBody
    rw [Sections.mapM_lift]
    refine halts_behind (Artifact.reads_sections h.sections (partAt_payload artifact encoded)).lift
      ?_
    refine halts_behind halign.lift (halts_behind hcount.lift (Halts.bind (Halts.bind ?_)))
    exact ((leads_readRelocations hpart hcodes hbind).bind_throw _).halts hfirst
  obtain ⟨left, hrun⟩ := halts_behind (f := fun _ => context.readBody _ _ _)
    (reads_seek (size_frontBytes_le artifact encoded)).lift hbody (Nat.zero_le _)
  refine except_map_eq_error.2 (except_bind_eq_error.2 (.inr ⟨_, liftError_eq_ok.2
    (peekName_of_encodes h hlayout false), ?_⟩))
  refine except_bind_eq_error.2
    (.inr ⟨_, liftError_eq_ok.2 (peekSections_of_encodes h hlayout false), ?_⟩)
  simp only [bodyStart_of_describes hlayout, Cursor.ofBytes]
  rw [hrun]

/-- A process whose anchor and whose base image start where addresses do. -/
def lowProcess : LiveProcess where
  symbols := SymbolTable.empty ⟨0, wordSpace⟩ fun serial =>
    UInt64.ofNat (addressSpace - 16 * (serial + 1))
  image := .mapped 0 wordSpace []
  resolver := ⟨fun _ => none, fun _ => none, fun _ => none, fun _ _ => none, fun _ _ _ => none,
    fun _ => none⟩

/-- A stub of one word, which is bound by a relocation. -/
def boundStub (relocation : Relocation) : Artifact :=
  { Artifact.method "stub" 1 0 with
    kind := .stub
    sections := ⟨⟨.consts, 0, zeros 8, 8, [relocation]⟩, .empty .insts, .empty .stubs⟩ }

theorem exists_halts_of_written (relocation : Relocation) (auxiliary : Auxiliary)
    (hwritten : causeOf? (Context.writeArtifact ⟨lowProcess, false⟩ (boundStub relocation)
      (.ofCapacity 512)) = none)
    (hcodes : Context.auxiliary ⟨lowProcess, false⟩ 0 0 relocation = .ok auxiliary)
    (hbind : auxiliary.Legible → Leads (constantBytes auxiliary)
      (context.bindValue 0 relocation.kind auxiliary.1) (throw (.halt .overflow))) :
    ∃ payload entry, context.readArtifact payload entry = .error (.halt .overflow) := by
  obtain ⟨layout, after, hrun⟩ := causeOf?_eq_none.1 hwritten
  obtain ⟨encoded, hencodes, -, hlayout⟩ := writeArtifact_ok hrun
  obtain ⟨other, coding, hother, -, hcoding⟩ :=
    List.forall₂_cons_left_iff.1 (hencodes.relocations .consts).codes
  cases hcodes.symm.trans hother
  have hlegible := (hencodes.relocations .consts).legible auxiliary (hcoding ▸ List.mem_cons_self)
  exact ⟨_, _, halts_readArtifact hencodes hlayout rfl hcoding (hbind hlegible)⟩

/-- **A process in which some distance leads nowhere is stopped by some payload.** -/
theorem exists_halts_of_not_inRange (h : ¬context.process.InRange) :
    ∃ payload entry, context.readArtifact payload entry = .error (.halt .overflow) := by
  have hcases : addressSpace ≤ context.process.symbols.anchor.start.toNat + maxAnchorDistance ∨
      context.process.image.isMapped = true ∧
        addressSpace ≤ context.process.image.origin.toNat + (wordSpace - 1) := by
    by_contra hnot
    obtain ⟨hanchor, himage⟩ := not_or.1 hnot
    exact h ⟨Nat.not_le.1 hanchor, fun hmapped => Nat.not_le.1 fun hle => himage ⟨hmapped, hle⟩⟩
  rcases hcases with hanchor | ⟨hmapped, himage⟩
  · -- The greatest word of a symbol.
    refine exists_halts_of_written ⟨.externalWord, 0, 0, .address (UInt64.ofNat maxAnchorDistance)⟩
      (0xFFFFFFFE, none) (by decide +kernel) (by decide +kernel) fun _ => ?_
    have hword : Symbol.ofRaw 0xFFFFFFFE = .anchorDistance maxAnchorDistance := by decide
    have hsum : context.process.symbols.addressOf (Symbol.ofRaw 0xFFFFFFFE) =
        .error (.halt .overflow) := by
      rw [hword, SymbolTable.addressOf, Address.after?_eq_none.2 hanchor, orOverflow]
    have hbound : context.bindValue 0 .externalWord 0xFFFFFFFE = throw (.halt .overflow) := by
      simp only [bindValue, RelocationKind.operand, hsum]
      rfl
    rw [hbound]
    exact leads_self _
  · -- The greatest distance into the image.
    refine exists_halts_of_written ⟨.metadata, 0, 0, .immediate (.type ⟨0xFFFFFFFF⟩)⟩
      (relocationMarker, some (.sharedType 0xFFFFFFFF)) (by decide +kernel) (by decide +kernel)
      fun hlegible => ?_
    have hsum : context.decodeValue (.sharedType 0xFFFFFFFF) = .error (.halt .overflow) := by
      have hshared : context.decodeValue (Resident.type.reference 0xFFFFFFFF) = _ :=
        decodeValue_shared
      exact hshared.trans (except_map_eq_error.2
        (sharedAddress_eq_error.2 (.inr ⟨hmapped, himage, rfl⟩)))
    exact (leads_readValue (hlegible _ rfl) hsum).bind_throw _

/-! ## 3. Writing and reading -/

/-- **Sums of addresses stop the process in writing where a call strays, and in reading where a
    distance leads nowhere; and nowhere else.** An artifact without a call that strays is written or
    refused, and what is refused is taken back. One with such a call, for which one of its sections
    has to reach beyond the last address, is never written: something else in it is refused and
    taken back, or the process stops; and it stops, with the code of the artifact left in the arena,
    if it is only such calls that are in the way. No payload stops a process in which every distance
    leads to an address, and some payload stops any other. -/
theorem sums_of_addresses (context : Context) (artifact : Artifact) (arena : Arena)
    {capacity slots : Nat} (hreached : context.process.symbols.Reached)
    (hfits : arena.Fits capacity slots) (hcapacity : capacity < addressSpace) :
    (¬artifact.Strays → (∃ layout after, context.writeArtifact artifact arena = .ok layout after) ∨
      ∃ cause after, context.writeArtifact artifact arena = .error (.error cause) after ∧
        Undone arena cause after) ∧
    (artifact.Strays →
      (∃ kind, addressSpace <
        (artifact.sections.get kind).origin.toNat + (artifact.sections.get kind).bytes.size) ∧
      ((∃ cause after, context.writeArtifact artifact arena = .error (.error cause) after ∧
          Undone arena cause after) ∨
        ∃ left, context.writeArtifact artifact arena = .error (.halt .overflow) left) ∧
      ∀ layout after, context.writeArtifact artifact.settled arena = .ok layout after →
        ∃ left, context.writeArtifact artifact arena = .error (.halt .overflow) left ∧
          PartAt left.bytes 0
            (arena.bytes ++ zeros (paddingAfter arena.position) ++ artifact.codeBytes)) ∧
    (∀ payload entry why, context.readArtifact payload entry = .error (.halt why) →
      why = .overflow ∧ ¬context.process.InRange) ∧
    (¬context.process.InRange →
      ∃ payload entry, context.readArtifact payload entry = .error (.halt .overflow)) := by
  refine ⟨fun hnot => ?_, fun hstrays => ⟨?_, ?_, fun layout after => halts_of_settled hstrays⟩,
    fun payload entry why => forSum_of_readArtifact, exists_halts_of_not_inRange⟩
  · cases hrun : context.writeArtifact artifact arena with
    | ok layout after => exact .inl ⟨layout, after, rfl⟩
    | error fault after =>
      cases fault with
      | error cause => exact .inr ⟨cause, after, rfl, undone_writeArtifact hrun⟩
      | halt why =>
        exact absurd (forSum_of_writeArtifact hreached.sound hfits hcapacity hrun).2 hnot
  · obtain ⟨kind, hpart⟩ := hstrays
    exact ⟨kind, hpart.reaches⟩
  · cases hrun : context.writeArtifact artifact arena with
    | ok layout after => exact absurd hrun (not_ok_of_strays hstrays layout after)
    | error fault after =>
      cases fault with
      | error cause => exact .inl ⟨cause, after, rfl, undone_writeArtifact hrun⟩
      | halt why =>
        obtain ⟨rfl, -⟩ := forSum_of_writeArtifact hreached.sound hfits hcapacity hrun
        exact .inr ⟨after, rfl⟩

/-- A stub of two bytes that starts at the last address, and calls a routine from its second
    byte. -/
def lastStub : Artifact :=
  { Artifact.method "stub" 1 0 with
    kind := .stub
    sections :=
      ⟨.empty .consts,
        ⟨.insts, 0xFFFFFFFFFFFFFFFF, zeros 2, 2, [⟨.runtimeCall, 1, 0, .address 4100⟩]⟩,
        .empty .stubs⟩ }

theorem sums_of_addresses_lastStub :
    let top := imageOnly (.mapped 18446744073709547520 4096 [])
    top.process.symbols.symbolOf 4100 = .ok (.anchorDistance 4) ∧
    (∃ left, top.writeArtifact lastStub startedArena = .error (.halt .overflow) left ∧
      PartAt left.bytes 0 (#[7] ++ zeros 7 ++ lastStub.codeBytes)) ∧
    ∃ payload entry, top.readArtifact payload entry = .error (.halt .overflow) := by
  intro top
  have hfits : startedArena.Fits 512 0 := ⟨rfl, rfl, by decide⟩
  obtain ⟨-, hstrayed, -, hread⟩ :=
    sums_of_addresses top lastStub startedArena ⟨_, _, [], rfl⟩ hfits (by decide)
  refine ⟨by decide +kernel, ?_, hread fun hinRange => absurd (hinRange.image rfl) (by decide)⟩
  have hstrays : lastStub.Strays :=
    ⟨.insts, _, List.mem_cons_self, ⟨rfl, ⟨4100, rfl⟩, by decide⟩, by decide⟩
  have hwritten : causeOf? (top.writeArtifact lastStub.settled startedArena) = none := by
    decide +kernel
  obtain ⟨layout, after, hrun⟩ := causeOf?_eq_none.1 hwritten
  exact (hstrayed hstrays).2.2 layout after hrun

end Context

end CodeVault
