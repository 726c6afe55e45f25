import CodeVault.Proofs.Artifact.Carried
import CodeVault.Proofs.Cursor.Cuts

/-!
# Payloads that were cut short

* a payload that is read is read alike when it is cut behind the place where reading ended, and is
  refused for what it holds when it is cut before (`readPayload_front`), whatever bytes it is made
  of;
* reading a payload that was written ends with its last byte (`finish_of_readPayload`), in whatever
  process;
* so **nothing that is cut off an artifact's payload goes unnoticed** (`readArtifact_truncated`).
-/

namespace CodeVault

open Arena Bytes Cursor

variable {ε α β : Type}

/-! ## 1. The parts of a payload -/

theorem Sections.cuts_mapM {causes : ε → Prop} {f : α → EStateM ε Cursor β} {s : Sections α}
    (h : ∀ a, Cuts causes (f a)) : Cuts causes (s.mapM f) :=
  (h _).bind fun _ => (h _).bind fun _ => (h _).bind fun _ => cuts_pure _

namespace Reference

theorem cuts_readType : Cuts CacheError.IsCorrupt readType := by
  refine cuts_readU32.bind fun raw => ?_
  split
  · exact cuts_readString.bind fun _ => cuts_pure _
  · exact cuts_throw _

theorem cuts_readBody (tag : Int) : Cuts CacheError.IsCorrupt (readBody tag) := by
  unfold readBody
  split
  · exact cuts_pure _
  · exact cuts_pure _
  · exact cuts_readType.bind fun _ => cuts_pure _
  · refine cuts_readType.bind fun holder => cuts_readString.bind fun name => ?_
    exact cuts_readString.bind fun signature => cuts_pure _
  · exact cuts_readString.bind fun _ => cuts_pure _
  · refine cuts_readU8.bind fun raw => ?_
    split
    · exact cuts_pure _
    · exact cuts_throw _
  · exact cuts_pure _
  · exact cuts_pure _
  · exact cuts_readU32.bind fun _ => cuts_pure _
  · exact cuts_readU32.bind fun _ => cuts_pure _
  · exact cuts_readU32.bind fun _ => cuts_pure _
  · exact cuts_throw _

theorem cuts_read : Cuts CacheError.IsCorrupt read := cuts_readI32.bind fun _ => cuts_readBody _

end Reference

theorem SectionDescriptor.cuts_read (expected : SectionKind) :
    Cuts CacheError.IsCorrupt (read expected) := by
  refine Cuts.bind_pos (fun _ _ h => by rw [h]) fun start => cuts_readU32.bind fun raw => ?_
  refine Cuts.unless (u := ()) (cuts_readU32.bind fun size => cuts_readU64.bind fun origin => ?_)
  exact cuts_readU32.bind fun offset => (cuts_seek _).bind fun _ => cuts_pure _

namespace Artifact

theorem cuts_readSection (entry : Entry) (descriptor : SectionDescriptor) :
    Cuts CacheError.IsCorrupt (readSection entry descriptor) := by
  refine cuts_align.bind fun _ => Cuts.bind_pos (fun _ _ h => by rw [h]) fun pos => ?_
  exact Cuts.unless (u := ()) ((cuts_readBytes _).bind fun _ => cuts_pure _)

theorem cuts_readTables : Cuts CacheError.IsCorrupt readTables := by
  refine cuts_readU32.bind fun frameSize => (cuts_readList 4 cuts_readU32).bind
    fun entryOffsets => ?_
  refine (cuts_readList 8 ?_).bind fun oopMaps => (cuts_readList 16 ?_).bind fun pcDescriptors => ?_
  · exact cuts_readU32.bind fun pcOffset => (cuts_readList 4 cuts_readU32).bind fun slots =>
      cuts_pure _
  · refine cuts_readU32.bind fun pcOffset => cuts_readI32.bind fun scopeOffset => ?_
    exact cuts_readI32.bind fun objOffset => cuts_readU32.bind fun flags => cuts_pure _
  refine cuts_readBlob.bind fun scopes => (cuts_readList 12 ?_).bind fun handlers => ?_
  · refine cuts_readU32.bind fun pcOffset => cuts_readU32.bind fun handlerOffset => ?_
    exact cuts_readU32.bind fun scopeDepth => cuts_pure _
  refine (cuts_readList 8 ?_).bind fun nullChecks => cuts_pure _
  exact cuts_readU32.bind fun execOffset => cuts_readU32.bind fun continuationOffset => cuts_pure _

end Artifact

namespace Context

variable {context : Context}

theorem cuts_readRecord (sectionSize : Nat) :
    Cuts CacheError.IsCorrupt (readRecord sectionSize) := by
  refine cuts_readU8.bind fun raw => ?_
  split
  · refine cuts_readU8.bind fun format => cuts_readU16.bind fun reserved => cuts_readU32.bind
      fun offset => ?_
    exact Cuts.unless (u := ()) (cuts_pure _)
  · exact cuts_throw _

/-- What a reference stands for does not depend on how many bytes are left. -/
theorem cuts_readValue : Cuts Fault.IsCorrupt context.readValue := by
  refine Reference.cuts_read.lift.bind fun reference => ?_
  split
  · exact cuts_pure _
  · exact cuts_throw _

theorem cuts_bindValue (referenceCount : Nat) (kind : RelocationKind) (word : UInt32) :
    Cuts Fault.IsCorrupt (context.bindValue referenceCount kind word) := by
  unfold bindValue
  split
  · exact cuts_pure _
  · refine cuts_ite (cuts_pure _) ?_
    split
    · exact cuts_pure _
    · exact cuts_throw _
  · exact cuts_ite (cuts_readValue.bind fun _ => cuts_pure _)
      (cuts_ite (cuts_pure _) (cuts_throw _))
  · exact cuts_pure _

theorem cuts_bindAll (referenceCount : Nat) (bindings : List Binding) :
    Cuts Fault.IsCorrupt (context.bindAll referenceCount bindings) := by
  induction bindings with
  | nil => exact cuts_pure []
  | cons binding bindings ih =>
    exact (cuts_bindValue _ _ _).bind fun _ => ih.bind fun _ => cuts_pure _

theorem cuts_readRelocations (referenceCount sectionSize : Nat) :
    Cuts Fault.IsCorrupt (context.readRelocations referenceCount sectionSize) := by
  refine (cuts_readCount _).lift.bind fun count => cuts_readU32.lift.bind fun locsPoint => ?_
  refine (cuts_readMany (cuts_readRecord _) _).lift.bind fun records => ?_
  refine (cuts_readMany cuts_readU32 _).lift.bind fun words => ?_
  exact (cuts_bindAll _ _).bind fun _ => cuts_pure _

theorem cuts_readReferences (count : Nat) :
    Cuts Fault.IsCorrupt (context.readReferences count) := by
  induction count with
  | zero => exact cuts_pure []
  | succ count ih => exact cuts_readValue.bind fun _ => ih.bind fun _ => cuts_pure _

/-- **What follows the descriptors may be cut short anywhere.** -/
theorem cuts_readBody (entry : Entry) (name : String) (descriptors : Sections SectionDescriptor) :
    Cuts Fault.IsCorrupt (context.readBody entry name descriptors) := by
  refine (Sections.cuts_mapM fun _ => (Artifact.cuts_readSection entry _).lift).bind
    fun sections => ?_
  refine cuts_align.lift.bind fun _ => (cuts_readCount 4).lift.bind fun referenceCount => ?_
  refine (Sections.cuts_mapM fun part => (cuts_readRelocations _ _).bind fun _ => cuts_pure _).bind
    fun bound => ?_
  refine cuts_align.lift.bind fun _ => Artifact.cuts_readTables.lift.bind fun tables => ?_
  refine (cuts_readReferences _).bind fun references => ?_
  exact cuts_ite (cuts_readBlob.lift.bind fun _ => cuts_pure _)
    ((cuts_pure _).bind fun _ => cuts_pure _)

end Context

/-! ## 2. Names and descriptors -/

namespace Payload

variable {front rest payload : Bytes} {entry : Entry}

/-- The name is read from what is left of a payload, or it is refused there. -/
theorem peekName_front {name : String} (h : peekName (front ++ rest) entry = .ok name) :
    peekName front entry = .ok name ∨ ∃ cause, peekName front entry = .error (.corrupt cause) := by
  obtain ⟨text, htext, hrest⟩ := except_bind_eq_ok.1 h
  rcases cuts_readCString.runAt htext with hshort | ⟨cause, hshort⟩
  · exact .inl (except_bind_eq_ok.2 ⟨text, hshort, hrest⟩)
  · exact .inr ⟨cause, except_bind_eq_error.2 (.inl hshort)⟩

theorem corrupt_of_checkSection {descriptor : SectionDescriptor} {e : CacheError}
    (h : checkSection payload entry descriptor = .error e) : e.IsCorrupt := by
  unfold checkSection at h
  split at h <;> cases h
  exact ⟨_, rfl⟩

/-- Sections are in a payload, or they are refused for what it holds. -/
theorem checkSections_cases (payload : Bytes) (entry : Entry)
    (descriptors : Sections SectionDescriptor) :
    descriptors.mapM (checkSection payload entry) = .ok ⟨(), (), ()⟩ ∨
      ∃ cause, descriptors.mapM (checkSection payload entry) = .error (.corrupt cause) := by
  cases hchecks : descriptors.mapM (checkSection payload entry) with
  | ok checked => exact .inl rfl
  | error e =>
    have hcorrupt : e.IsCorrupt := by
      rcases except_bind_eq_error.1 hchecks with h | ⟨_, -, h⟩
      · exact corrupt_of_checkSection h
      rcases except_bind_eq_error.1 h with h | ⟨_, -, h⟩
      · exact corrupt_of_checkSection h
      rcases except_bind_eq_error.1 h with h | ⟨_, -, h⟩
      · exact corrupt_of_checkSection h
      · cases h
    obtain ⟨cause, rfl⟩ := hcorrupt
    exact .inr ⟨cause, rfl⟩

/-- The descriptors are read from what is left of a payload, or they are refused there. -/
theorem peekSections_front {descriptors : Sections SectionDescriptor}
    (h : peekSections (front ++ rest) entry = .ok descriptors) :
    peekSections front entry = .ok descriptors ∨ ∃ cause,
      peekSections front entry = .error (.corrupt cause) := by
  obtain ⟨read, hread, hrest⟩ := except_bind_eq_ok.1 h
  obtain ⟨checked, -, htotal⟩ := except_bind_eq_ok.1 hrest
  rcases (Sections.cuts_mapM SectionDescriptor.cuts_read).runAt hread with hshort | ⟨cause, hshort⟩
  · rcases checkSections_cases front entry read with hinside | ⟨cause, hbehind⟩
    · exact .inl (except_bind_eq_ok.2 ⟨read, hshort, except_bind_eq_ok.2 ⟨_, hinside, htotal⟩⟩)
    · exact .inr ⟨cause, except_bind_eq_error.2
        (.inr ⟨read, hshort, except_bind_eq_error.2 (.inl hbehind)⟩)⟩
  · exact .inr ⟨cause, except_bind_eq_error.2 (.inl hshort)⟩

end Payload

namespace Context

variable {context : Context} {artifact : Artifact}

/-! ## 3. Payloads -/

/-- **A payload that is read may be cut behind the place where reading ended, and nowhere else**: it
    is read alike, or refused for what is left of it. -/
theorem readPayload_front {front rest : Bytes} {entry : Entry} {finish : Nat}
    (h : context.readPayload (front ++ rest) entry = .ok (artifact, finish)) :
    (finish ≤ front.size ∧ context.readPayload front entry = .ok (artifact, finish)) ∨
      ∃ cause, context.readPayload front entry = .error (.error (.corrupt cause)) := by
  obtain ⟨name, hname, h⟩ := except_bind_eq_ok.1 h
  rcases Payload.peekName_front (liftError_eq_ok.1 hname) with hname | ⟨cause, hname⟩
  swap
  · exact .inr ⟨cause, except_bind_eq_error.2 (.inl (by rw [hname]; rfl))⟩
  obtain ⟨descriptors, hdescriptors, h⟩ := except_bind_eq_ok.1 h
  rcases Payload.peekSections_front (liftError_eq_ok.1 hdescriptors) with
    hdescriptors | ⟨cause, hdescriptors⟩
  swap
  · exact .inr ⟨cause, except_bind_eq_error.2 (.inr ⟨name, liftError_eq_ok.2 hname,
      except_bind_eq_error.2 (.inl (by rw [hdescriptors]; rfl))⟩)⟩
  have hcuts := (cuts_seek (entry.codeOffset.toNat + 3 * SectionDescriptor.encodedSize)).lift.bind
    fun _ => context.cuts_readBody entry name descriptors
  dsimp only at h
  split at h
  · rename_i hrun
    cases h
    rcases hcuts (Nat.zero_le front.size) (Nat.zero_le _) hrun with
      ⟨finish, _, h', rfl, hshort⟩ | ⟨_, _, hshort, cause, rfl⟩
    · refine .inl ⟨h', except_bind_eq_ok.2 ⟨name, liftError_eq_ok.2 hname, ?_⟩⟩
      refine except_bind_eq_ok.2 ⟨descriptors, liftError_eq_ok.2 hdescriptors, ?_⟩
      simp only [Cursor.ofBytes, hshort]
    · refine .inr ⟨cause, except_bind_eq_error.2 (.inr ⟨name, liftError_eq_ok.2 hname, ?_⟩)⟩
      refine except_bind_eq_error.2 (.inr ⟨descriptors, liftError_eq_ok.2 hdescriptors, ?_⟩)
      simp only [Cursor.ofBytes, hshort]
  · cases h

/-- A payload that was cut before the place where reading ended is refused for what is left of
    it. -/
theorem readArtifact_cut {payload : Bytes} {entry : Entry} {finish n : Nat}
    (h : context.readPayload payload entry = .ok (artifact, finish)) (hn : n < finish) :
    ∃ cause, context.readArtifact (payload.extract 0 n) entry =
      .error (.error (.corrupt cause)) := by
  have hsplit : payload = payload.extract 0 n ++ payload.extract n := by
    rw [Array.extract_append_extract, Nat.zero_min]
    exact (Array.extract_eq_self_of_le (Nat.le_max_right _ _)).symm
  rw [hsplit] at h
  rcases readPayload_front h with ⟨hle, -⟩ | ⟨cause, hrefused⟩
  · rw [Array.size_extract] at hle
    omega
  · exact ⟨cause, by rw [readArtifact, hrefused]; rfl⟩

/-- **Reading a payload that was written ends with its last byte**, in whatever process it is
    read. -/
theorem finish_of_readPayload {writer : Context} {encoded : Encoded} {layout : PayloadLayout}
    {start finish : Nat} {offline : Bool} {read : Artifact}
    (hencodes : writer.Encodes artifact encoded)
    (hlayout : Describes layout start artifact (artifact.payload encoded))
    (h : context.readPayload (artifact.payload encoded) (Session.entryOf offline artifact layout) =
      .ok (read, finish)) : finish = (artifact.payload encoded).size := by
  obtain ⟨name, descriptors, begun, after, -, hdescriptors, hseek, hbody, rfl⟩ :=
    readPayload_eq_ok h
  obtain rfl : descriptors = artifact.descriptors :=
    Except.ok.inj (hdescriptors.symm.trans (peekSections_of_encodes hencodes hlayout offline))
  rw [bodyStart_of_describes hlayout] at hseek
  obtain ⟨hstart, hbegun⟩ := reads_seek (size_frontBytes_le artifact encoded) (Nat.zero_le _)
  cases hbegun.symm.trans hseek
  -- Where the references end does not depend on the process, and all that is read is read up to
  -- there.
  obtain ⟨references, hreferences, -⟩ := traces_readBody _ name artifact.descriptors hbody
  have hkind : (Session.entryOf offline artifact layout).kind = artifact.kind := rfl
  obtain ⟨hend, hrun⟩ := reads_readReferences hencodes hkind hstart
  cases hrun.symm.trans hreferences
  rfl

/-- **Nothing that is cut off an artifact's payload goes unnoticed.** Wherever the payload that was
    written is read, so that there is an answer, what is left of it when bytes at its end are
    missing is refused for what it holds. -/
theorem readArtifact_truncated {writer : Context} {arena after : Arena} {layout : PayloadLayout}
    (h : writer.writeArtifact artifact arena = .ok layout after) :
    ∃ payload, after.bytes.slice? layout.offset layout.size = some payload ∧
      ∀ (context : Context) (offline : Bool) (read : Artifact),
        context.readArtifact payload (Session.entryOf offline artifact layout) = .ok read →
          ∀ n < payload.size, ∃ cause,
            context.readArtifact (payload.extract 0 n) (Session.entryOf offline artifact layout) =
              .error (.error (.corrupt cause)) := by
  obtain ⟨encoded, hencodes, hslice, hlayout⟩ := payload_of_writeArtifact h
  refine ⟨artifact.payload encoded, hslice, fun context offline read hread n hn => ?_⟩
  obtain ⟨⟨_, finish⟩, hpayload, -⟩ := except_map_eq_ok.1 hread
  exact readArtifact_cut hpayload (finish_of_readPayload hencodes hlayout hpayload ▸ hn)

/-- A stub is written and read, and nothing less of it is read. -/
theorem readArtifact_truncated_selfCallingStub :
    ∃ layout after payload,
      Context.writeArtifact ⟨internedOnce, false⟩ selfCallingStub (.ofCapacity 512) =
        .ok layout after ∧
      (∃ read, Context.readArtifact ⟨internedOnce, false⟩ payload
        (Session.entryOf false selfCallingStub layout) = .ok read) ∧ payload.size = layout.size ∧
      ∀ n < payload.size, ∃ cause, Context.readArtifact ⟨internedOnce, false⟩ (payload.extract 0 n)
        (Session.entryOf false selfCallingStub layout) = .error (.error (.corrupt cause)) := by
  obtain ⟨layout, after, payload, hwrite, hslice, read, hread⟩ := selfCallingStub_isRead
  obtain ⟨other, hother, hcut⟩ := readArtifact_truncated hwrite
  obtain rfl : other = payload := Option.some.inj (hother.symm.trans hslice)
  exact ⟨layout, after, other, hwrite, ⟨read, hread⟩, size_of_slice? hslice, hcut _ _ read hread⟩

end Context

end CodeVault
