import CodeVault.Proofs.Arena.Refused
import CodeVault.Proofs.Artifact.RoundTrip

/-!
# A refused artifact leaves no trace

* every part of an artifact is written tidily, wherever it stops; where the sections are is written
  over descriptors that were written before (`tidy_writePayload`);
* **what a refused artifact leaves is the arena filled up to the next boundary**, marked if there
  was no room (`Undone`, `writeArtifact_error`); so the next artifact is written as if nothing had
  been tried.
-/

namespace CodeVault

open Arena Bytes Cursor

variable {ε α β : Type} {edge : Nat}

/-! ## 1. Parts -/

theorem TypeDescriptor.tidy_write (type : TypeDescriptor) : Tidy edge Spoils type.write :=
  (Arena.tidy_write _).bind fun _ => (tidy_writeString _).bind fun _ => tidy_pure _

theorem Reference.tidy_write (reference : Reference) : Tidy edge Spoils reference.write := by
  refine (Arena.tidy_write _).bind fun _ => ?_
  cases reference with
  | noData | null | systemLoader | platformLoader => exact tidy_pure _
  | type descriptor => exact descriptor.tidy_write
  | method descriptor =>
    refine descriptor.holder.tidy_write.bind fun _ => (tidy_writeString _).bind fun _ => ?_
    exact (tidy_writeString _).bind fun _ => tidy_pure _
  | string text => exact (tidy_writeString text).bind fun _ => tidy_pure _
  | primitive p => exact (Arena.tidy_write _).bind fun _ => tidy_pure _
  | sharedType n | sharedMethod n | sharedString n =>
    exact (Arena.tidy_write _).bind fun _ => tidy_pure _

theorem Sections.tidy_mapM {spoils : Bool → ε → Bool → Prop} {f : α → EStateM ε Arena β}
    {s : Sections α} (h : ∀ kind, Tidy edge spoils (f (s.get kind))) :
    Tidy edge spoils (s.mapM f) :=
  (h .consts).bind fun _ => (h .insts).bind fun _ => (h .stubs).bind fun _ => tidy_pure _

namespace Artifact

theorem plain_of_length32 {part : Part} {length : Nat} {cause : CacheError}
    (h : length32 part length = .error cause) : Plain cause := by
  unfold length32 at h
  split at h <;> cases h
  exact plain_malformed _

theorem tidy_writeWord (v : UInt32) : Tidy edge Spoils (writeWord v) :=
  (tidy_write _).bind fun _ => tidy_pure _

theorem tidy_writeCount (part : Part) (length : Nat) : Tidy edge Spoils (writeCount part length) :=
  (tidy_ofOutcome fun _ h => (plain_of_length32 h).spoils).bind fun _ => (tidy_write _).bind
    fun _ => tidy_pure _

theorem tidy_writeBlob (part : Part) (bytes : Bytes) : Tidy edge Spoils (writeBlob part bytes) :=
  (tidy_writeCount part _).bind fun _ => (tidy_write _).bind fun _ => tidy_pure _

theorem tidy_writeList {item : α → Writing Unit} (part : Part)
    (hitem : ∀ a, Tidy edge Spoils (item a)) (items : List α) :
    Tidy edge Spoils (writeList part item items) :=
  (tidy_writeCount part _).bind fun _ => tidy_forM hitem items

theorem tidy_writeTables (artifact : Artifact) : Tidy edge Spoils artifact.writeTables := by
  have hword : ∀ v, Tidy edge Spoils (writeWord v) := tidy_writeWord
  refine (hword _).bind fun _ => (tidy_writeList _ hword _).bind fun _ => ?_
  refine (tidy_writeList _ (fun map => ?_) _).bind fun _ => ?_
  · exact (hword _).bind fun _ => tidy_writeList _ hword _
  refine (tidy_writeList _ (fun desc => ?_) _).bind fun _ => ?_
  · exact (hword _).bind fun _ => (tidy_write _).bind fun _ => (tidy_write _).bind fun _ => hword _
  refine (tidy_writeBlob _ _).bind fun _ => ?_
  refine (tidy_writeList _ (fun handler => ?_) _).bind fun _ => ?_
  · exact (hword _).bind fun _ => (hword _).bind fun _ => hword _
  exact tidy_writeList _ (fun check => (hword _).bind fun _ => hword _) _

theorem tidy_writeDescriptor (slot : CodeSection × SectionKind) :
    Tidy edge Spoils (writeDescriptor slot) := by
  obtain ⟨part, expected⟩ := slot
  unfold writeDescriptor
  refine Tidy.unless (u := ()) (plain_malformed _).spoils ?_
  refine (tidy_writeWord _).bind fun _ =>
    (tidy_ofOutcome fun _ h => (plain_of_length32 h).spoils).bind fun _ => ?_
  refine (tidy_writeWord _).bind fun _ => (tidy_write _).bind fun _ => (tidy_write _).bind
    fun _ => ?_
  exact (tidy_writeWord _).bind fun _ => tidy_pure _

/-- A length that has to be one of four bytes, among actions that may stop the process. -/
theorem tidy_length32 (part : Part) (length : Nat) :
    Tidy edge FaultSpoils
      (ofOutcome (liftError (fun e => e) (length32 part length)) : Encoding UInt32) := by
  refine tidy_ofOutcome fun fault h => ?_
  cases hlength : length32 part length with
  | ok word =>
    rw [hlength] at h
    cases h
  | error cause =>
    rw [hlength] at h
    cases h
    exact (plain_of_length32 hlength).faultSpoils

theorem tidy_writeSection {start place : Nat} (part : CodeSection) (hplace : place + 4 ≤ edge) :
    Tidy edge FaultSpoils (writeSection start (part, place)) := by
  refine tidy_align.lift.bind fun _ => tidy_get.bind fun _ => (tidy_length32 _ _).bind fun _ => ?_
  exact (tidy_write _).lift.bind fun _ => tidy_patchU32 hplace _

end Artifact

namespace Context

variable {context : Context} {artifact : Artifact}

/-! ## 2. Relocations and constants -/

theorem tidy_writeRecord (sectionSize : Nat) (relocation : Relocation) :
    Tidy edge Spoils (writeRecord sectionSize relocation) := by
  unfold writeRecord
  refine Tidy.unless (u := ()) (plain_malformed _).spoils ?_
  refine (tidy_write _).bind fun _ => (tidy_write _).bind fun _ => (tidy_write _).bind fun _ => ?_
  exact (tidy_write _).bind fun _ => tidy_pure _

theorem plain_of_symbolWord {target : Address} {cause : CacheError}
    (h : context.symbolWord target = .error (.error cause)) : Plain cause := by
  rcases symbolWord_eq_error.1 h with ⟨unknown, -, hcause⟩ | ⟨_, -, -, hhalt⟩
  · cases hcause
    exact plain_symbol unknown
  · cases hhalt

theorem plain_of_targetWord {origin target : Address} {relocation : Relocation} {cause : CacheError}
    (h : context.targetWord origin relocation target = .error (.error cause)) : Plain cause := by
  rcases targetWord_eq_error.1 h with ⟨-, -, hhalt⟩ | ⟨-, hsymbol⟩
  · cases hhalt
  · exact plain_of_symbolWord hsymbol

/-- An auxiliary word is refused for its operand, its symbol or the entity that it stands for. -/
theorem plain_of_auxiliary {origin : Address} {referenceCount : Nat} {relocation : Relocation}
    {cause : CacheError} (h : context.auxiliary origin referenceCount relocation =
      .error (.error cause)) : Plain cause := by
  unfold auxiliary at h
  split at h
  · cases h
  · cases h
  · rename_i target _ _
    cases hword : context.targetWord origin relocation target with
    | ok word =>
      rw [hword] at h
      cases h
    | error fault =>
      rw [hword] at h
      cases h
      exact plain_of_targetWord hword
  · rename_i value _ _
    cases hvalue : context.encodeValue value with
    | ok reference =>
      rw [hvalue] at h
      cases h
    | error why =>
      rw [hvalue] at h
      cases h
      exact plain_lookupFailed why
  · cases h
  · split at h <;> cases h
    exact plain_malformed _
  · cases h
    exact plain_malformed _

theorem tidy_writeAuxiliaries (origin : Address) (referenceCount : Nat)
    (relocations : List Relocation) :
    Tidy edge FaultSpoils (context.writeAuxiliaries origin referenceCount relocations) := by
  induction relocations with
  | nil => exact tidy_pure _
  | cons relocation relocations ih =>
    refine (tidy_ofOutcome fun fault h mark cause hcause => ?_).bind fun _ =>
      (tidy_write _).lift.bind fun _ => ?_
    · rw [hcause] at h
      exact (plain_of_auxiliary h).spoils mark
    · exact ih.bind fun _ => tidy_pure _

theorem tidy_writeRelocations (referenceCount : Nat) (part : CodeSection) :
    Tidy edge FaultSpoils (context.writeRelocations referenceCount part) := by
  unfold Context.writeRelocations
  refine Tidy.unless (u := ()) (plain_malformed _).faultSpoils ?_
  refine (tidy_write _).lift.bind fun _ => (tidy_write _).lift.bind fun _ => ?_
  refine (tidy_forM (fun relocation => (tidy_writeRecord _ relocation).lift) _).bind fun _ => ?_
  refine (tidy_writeAuxiliaries _ _ _).bind fun _ => ?_
  exact tidy_forM (fun reference => reference.tidy_write.lift) _

theorem tidy_writeReferences (values : List EmbeddedValue) :
    Tidy edge Spoils (context.writeReferences values) := by
  induction values with
  | nil => exact tidy_pure _
  | cons value values ih =>
    unfold writeReferences
    cases context.encodeValue value with
    | ok reference => exact reference.tidy_write.bind fun _ => ih
    | error cause => exact (tidy_throw (plain_lookupFailed cause).spoils).bind fun _ => ih

/-! ## 3. The payload -/

/-- **A payload is written tidily, wherever it stops.** -/
theorem tidy_writePayload (start : Nat) :
    Tidy edge FaultSpoils (context.writePayload artifact start) := by
  refine (tidy_writeCString _).lift.bind fun _ => tidy_align.lift.bind fun _ => tidy_get.bind
    fun _ => ?_
  refine (Artifact.tidy_length32 _ _).bind fun _ => ?_
  refine (Sections.tidy_mapM fun _ => (Artifact.tidy_writeDescriptor _).lift).bind_from
    fun before middle places hplaces => ?_
  -- From here on the descriptors are there, so that the places of the sections can be written over
  -- them.
  have hinside (kind : SectionKind) : places.get kind + 4 ≤ max edge middle.position :=
    Nat.le_trans (Artifact.place_of_writeDescriptors hplaces kind).2 (Nat.le_max_right _ _)
  have hgrows : before.position ≤ middle.position := by
    have := Artifact.place_of_writeDescriptors hplaces .consts
    omega
  refine ⟨max edge middle.position, Nat.le_max_left _ _, fun h => by omega, ?_⟩
  refine (Sections.tidy_mapM fun kind => ?_).bind fun _ => tidy_align.lift.bind fun _ => ?_
  · have hplace := hinside kind
    cases kind <;> exact Artifact.tidy_writeSection _ hplace
  refine (Artifact.tidy_writeCount _ _).lift.bind fun _ => ?_
  refine (Sections.tidy_mapM fun _ => tidy_writeRelocations _ _).bind fun _ => ?_
  refine tidy_align.lift.bind fun _ => artifact.tidy_writeTables.lift.bind fun _ => ?_
  refine (tidy_writeReferences _).lift.bind fun _ => ?_
  have htail : ∀ k : Unit → Encoding PayloadLayout,
      (∀ u, Tidy (max edge middle.position) FaultSpoils (k u)) →
      Tidy (max edge middle.position) FaultSpoils (if artifact.kind = .code then
        (liftM (Artifact.writeBlob .dependencies artifact.dependencies) : Encoding Unit) >>= k
      else k ()) :=
    fun k hk => tidy_ite ((Artifact.tidy_writeBlob _ _).lift.bind hk) (hk ())
  refine htail _ fun _ => tidy_get.bind fun _ => (Artifact.tidy_length32 _ _).bind fun _ => ?_
  exact (Artifact.tidy_length32 _ _).bind fun _ => (Artifact.tidy_length32 _ _).bind fun _ =>
    tidy_pure _

/-! ## 4. An artifact that is refused -/

variable {arena after : Arena} {cause : CacheError}

/-- What writing an artifact leaves when it was refused: the arena filled up to the next boundary,
    or as it was if even that was refused, and marked if room has run out. -/
structure Undone (arena : Arena) (cause : CacheError) (after : Arena) : Prop where
  bytes : (Arena.align arena = .ok () (arena.extend (zeros (paddingAfter arena.position))) ∧
      after.bytes = arena.bytes ++ zeros (paddingAfter arena.position)) ∨
    ((∃ refused, Arena.align arena = .error cause refused) ∧ after.bytes = arena.bytes)
  capacity : after.capacity = arena.capacity
  tail : after.tail = arena.tail
  mark : after.failed = true ↔ arena.failed = true ∨ cause.IsExhausted
  clean : ¬cause.IsCorrupt

/-- What a payload that is refused has written is taken back. -/
theorem undone_writePayload {aligned : Arena} (haligned : Arena.align arena = .ok () aligned)
    (h : context.writePayload artifact aligned.position aligned = .error (.error cause) after) :
    Undone arena cause (after.truncate aligned.position) := by
  have hspoils := (tidy_writePayload aligned.position).error (Nat.zero_le _) h cause rfl
  have hbase := (preserves_writePayload outlasts_base aligned.position).error
    (partAt_self aligned.bytes) h
  have hends :=
    (preserves_writePayload (outlasts_ends aligned.capacity aligned.tail) aligned.position).error
      ⟨rfl, rfl⟩ h
  have hbytes : (after.truncate aligned.position).bytes = aligned.bytes := by
    have hfront := hbase.extract
    rwa [Nat.zero_add] at hfront
  have hextended := align_ok haligned
  subst hextended
  exact ⟨.inl ⟨haligned, hbytes⟩, hends.1, hends.2, hspoils.mark, hspoils.clean⟩

/-- **A refused artifact leaves the arena filled up to the next boundary.** -/
theorem undone_writeArtifact
    (h : context.writeArtifact artifact arena = .error (.error cause) after) :
    Undone arena cause after := by
  rcases bind_error h with halign | ⟨_, aligned, halign, h⟩
  · have halign := lift_eq_error.1 halign
    have htidy : Tidy 0 Spoils Arena.align := tidy_align
    have hspoils := htidy.error (Nat.zero_le _) halign
    obtain ⟨-, failed, rfl⟩ := align_error halign
    exact ⟨.inr ⟨⟨_, halign⟩, rfl⟩, rfl, rfl, hspoils.mark, hspoils.clean⟩
  · cases hrun : context.writePayload artifact aligned.position aligned with
    | ok layout last =>
      simp only [hrun] at h
      cases h
    | error fault last =>
      simp only [hrun] at h
      cases fault <;> cases h
      exact undone_writePayload (lift_eq_ok.1 halign) hrun

/-- Nothing that is written next is written otherwise, unless there was no room. -/
theorem Undone.writeArtifact_eq (h : Undone arena cause after) (hmark : after.failed = false)
    (other : Artifact) :
    context.writeArtifact other after = context.writeArtifact other arena := by
  have hnot : ¬(arena.failed = true ∨ cause.IsExhausted) := fun hbad => by
    rw [h.mark.2 hbad] at hmark
    cases hmark
  rcases h.bytes with ⟨halign, hbytes⟩ | ⟨⟨refused, hrefused⟩, -⟩
  · have hfailed : after.failed = arena.failed :=
      hmark.trans (Bool.eq_false_iff.2 fun hfailed => hnot (.inl hfailed)).symm
    have hafter : after = arena.extend (zeros (paddingAfter arena.position)) := by
      obtain ⟨bytes, capacity, tail, failed⟩ := after
      simp only [extend, Arena.mk.injEq]
      exact ⟨hbytes, h.capacity, h.tail, hfailed⟩
    have hposition : after.position % dataAlignment = 0 := by
      rw [hafter, position_extend, size_zeros, ← alignUp_eq, alignUp_mod]
    have hfirst : (liftM Arena.align : Encoding Unit) arena = .ok () after :=
      lift_eq_ok.2 (hafter ▸ halign)
    have hagain : (liftM Arena.align : Encoding Unit) after = .ok () after :=
      lift_eq_ok.2 (align_of_aligned hposition)
    obtain ⟨rest, hrest⟩ : ∃ rest : Unit → Encoding PayloadLayout,
        context.writeArtifact other = liftM Arena.align >>= rest := ⟨_, rfl⟩
    rw [hrest, bind_of_ok hfirst, bind_of_ok hagain]
  · exact absurd (align_error hrefused).1 hnot

/-- **A refused artifact leaves no trace**: the arena is filled up to the next boundary, or as it
    was if even that was refused; its ends are where they were, it is marked only if room has run
    out, and what bytes hold is never the cause. If it is not marked, whatever is written next is
    written as if nothing had been tried. -/
theorem writeArtifact_error
    (h : context.writeArtifact artifact arena = .error (.error cause) after) :
    Undone arena cause after ∧ (after.failed = false → ∀ (next : Context) (other : Artifact),
      next.writeArtifact other after = next.writeArtifact other arena) :=
  ⟨undone_writeArtifact h, fun hmark _ other =>
    (undone_writeArtifact h).writeArtifact_eq hmark other⟩

/-- The stub without its constants, so that no value stands for the index that it holds. -/
def strayStub : Artifact :=
  { selfCallingStub with
    sections := ⟨.empty .consts, ⟨.insts, 8192, zeros 16, 16,
      [⟨.runtimeCall, 4, 0, .address 8196⟩, ⟨.metadata, 8, 0, .recorded 1⟩]⟩, .empty .stubs⟩ }

/-- An arena with one byte in it. -/
def startedArena : Arena := ⟨#[7], 512, 0, false⟩

theorem writeArtifact_error_strayStub :
    ∃ cause after, Context.writeArtifact ⟨internedOnce, false⟩ strayStub startedArena =
      .error (.error cause) after ∧
      after = { startedArena with bytes := #[7, 0, 0, 0, 0, 0, 0, 0] } ∧
      Context.writeArtifact ⟨internedOnce, false⟩ selfCallingStub after =
        Context.writeArtifact ⟨internedOnce, false⟩ selfCallingStub startedArena := by
  have hrefused : causeOf? (Context.writeArtifact ⟨internedOnce, false⟩ strayStub startedArena) =
      some (.error (.malformed (.operand .metadata 8 (.recorded 1)))) := by
    decide +kernel
  obtain ⟨after, hrun⟩ := causeOf?_eq_some.1 hrefused
  obtain ⟨hundone, hagain⟩ := writeArtifact_error hrun
  have hplain := plain_malformed (.operand .metadata 8 (.recorded 1))
  have hroom : ¬(startedArena.failed = true ∨
      (CacheError.malformed (.operand .metadata 8 (.recorded 1))).IsExhausted) := by
    rintro (hfailed | hexhausted)
    · cases hfailed
    · exact hplain.1 hexhausted
  have hmark : after.failed = false := Bool.eq_false_iff.2 fun hmark => hroom (hundone.mark.1 hmark)
  refine ⟨_, after, hrun, ?_, hagain hmark _ _⟩
  rcases hundone.bytes with ⟨-, hbytes⟩ | ⟨⟨_, halign⟩, -⟩
  · obtain ⟨bytes, capacity, tail, failed⟩ := after
    simp only [startedArena, Arena.mk.injEq]
    exact ⟨hbytes.trans (by decide), hundone.capacity, hundone.tail, hmark⟩
  · exact absurd (align_error halign).1 hroom

end Context

end CodeVault
