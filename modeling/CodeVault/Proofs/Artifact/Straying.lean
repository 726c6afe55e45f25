import CodeVault.Proofs.Arena.Room
import CodeVault.Proofs.Artifact.Refused
import CodeVault.Proofs.Cursor.Safe
import CodeVault.Proofs.Symbol.Addresses

/-!
# Calls from places that have no address

The place of a call is the sum of the address at which its section was generated and its offset.
Sections come from a compiler, and nothing asks whether they end below the last address.

* `Fault.ForSum`: what is refused leaves the process alone; what stops it is a sum;
* a relocation strays (`Relocation.Strays`) if it is a call of an address from a place behind the
  last one; **only such a call stops the process in writing** (`forSum_of_writeArtifact`), and an
  artifact with one is never written (`not_ok_of_strays`);
* `Artifact.settled` is an artifact without its calls that stray. **If it is written, the artifact
  itself stops the process, and its code is left in the arena** (`halts_of_settled`).
-/

namespace CodeVault

open Arena Bytes Container Cursor

variable {ε σ α β : Type} {sum : Prop}

/-! ## 1. Faults for a sum of addresses -/

/-- A fault that leaves the process alone, or that stops it for a sum of addresses, where there is
    such a sum. -/
def Fault.ForSum (sum : Prop) : Fault ε → Prop
  | .error _ => True
  | .halt why => why = .overflow ∧ sum

theorem Fault.IsError.forSum {fault : Fault ε} (h : fault.IsError) : fault.ForSum sum := by
  obtain ⟨cause, rfl⟩ := h
  trivial

theorem Fault.ForSum.mono {other : Prop} {fault : Fault ε} (h : fault.ForSum sum)
    (himp : sum → other) :
    fault.ForSum other := by
  cases fault with
  | error cause => trivial
  | halt why => exact ⟨h.1, himp h.2⟩

theorem Fault.ForSum.map {φ : Type} {fault : Fault ε} (h : fault.ForSum sum) (f : ε → φ) :
    (fault.map f).ForSum sum := by
  cases fault with
  | error cause => trivial
  | halt why => exact h

/-- What only writes, or only reads, never stops the process. -/
theorem refuses_lift (action : EStateM ε σ α) :
    Refuses (Fault.ForSum sum) (liftM action : EStateM (Fault ε) σ α) := by
  intro s t fault hrun
  change liftFault action s = _ at hrun
  unfold liftFault at hrun
  split at hrun <;> cases hrun
  trivial

theorem Sections.refuses_mapM {causes : ε → Prop} {f : α → EStateM ε σ β} {s : Sections α}
    (h : ∀ kind, Refuses causes (f (s.get kind))) : Refuses causes (s.mapM f) :=
  (h .consts).bind fun _ => (h .insts).bind fun _ => (h .stubs).bind fun _ => refuses_pure _

/-! ## 2. Calls from a place that has no address -/

theorem RelocationKind.operand_of_isCall {kind : RelocationKind} (h : kind.isCall = true) :
    kind.operand = .target := by
  cases kind <;> first | rfl | cases h

/-- A relocation of a section that was generated at `origin` is a call of an address, and its place
    would be behind the last address. -/
structure Relocation.Strays (origin : Address) (relocation : Relocation) : Prop where
  call : relocation.kind.isCall = true
  address : ∃ target, relocation.value = .address target
  behind : addressSpace ≤ origin.toNat + relocation.offset.toNat

/-- A section has such a relocation, and it lies in the section. -/
def CodeSection.Strays (part : CodeSection) : Prop :=
  ∃ relocation ∈ part.relocations, relocation.Strays part.origin ∧
    insideSection relocation.offset part.bytes.size = true

/-- An artifact has such a section. -/
def Artifact.Strays (artifact : Artifact) : Prop := ∃ kind, (artifact.sections.get kind).Strays

/-- **Only a section that reaches beyond the last address has a call that strays.** -/
theorem CodeSection.Strays.reaches {part : CodeSection} (h : part.Strays) :
    addressSpace < part.origin.toNat + part.bytes.size := by
  obtain ⟨relocation, -, hstrays, hinside⟩ := h
  have hbehind := hstrays.behind
  have horigin : part.origin.toNat < addressSpace := part.origin.toNat_lt
  have hlt : relocation.offset.toNat < max 1 part.bytes.size := of_decide_eq_true hinside
  omega

namespace Context

variable {context : Context} {artifact : Artifact} {arena after : Arena} {origin : Address}
  {referenceCount : Nat} {relocation : Relocation}

/-- The word of a symbol is no sum: whatever has a symbol has a word. -/
theorem isError_of_symbolWord (hsound : context.process.symbols.Sound) {target : Address}
    {fault : Fault CacheError} (h : context.symbolWord target = .error fault) : fault.IsError := by
  rcases symbolWord_eq_error.1 h with ⟨cause, -, rfl⟩ | ⟨symbol, hsymbol, hnone, -⟩
  · exact ⟨_, rfl⟩
  · obtain ⟨raw, hraw, -⟩ := SymbolTable.ofRaw_of_symbolOf hsound hsymbol
    cases hnone.symm.trans hraw

/-- **The word of a target is a sum exactly for a call whose place is behind the last address.** -/
theorem forSum_of_targetWord (hsound : context.process.symbols.Sound) {target : Address}
    {fault : Fault CacheError} (h : context.targetWord origin relocation target = .error fault) :
    fault.ForSum (relocation.kind.isCall = true ∧
      addressSpace ≤ origin.toNat + relocation.offset.toNat) := by
  rcases targetWord_eq_error.1 h with ⟨hcall, hsite, rfl⟩ | ⟨-, hsymbol⟩
  · exact ⟨rfl, hcall, Address.after?_eq_none.1 hsite⟩
  · exact (isError_of_symbolWord hsound hsymbol).forSum

theorem forSum_of_auxiliary (hsound : context.process.symbols.Sound) {fault : Fault CacheError}
    (h : context.auxiliary origin referenceCount relocation = .error fault) :
    fault.ForSum (relocation.Strays origin) := by
  unfold auxiliary at h
  split at h
  · cases h
  · cases h
  · rename_i target _ hvalue
    have hword := forSum_of_targetWord hsound (except_map_eq_error.1 h)
    exact hword.mono fun ⟨hcall, hbehind⟩ => ⟨hcall, ⟨target, hvalue⟩, hbehind⟩
  · exact (isError_of_liftError h).forSum
  · cases h
  · split at h <;> cases h
    trivial
  · cases h
    trivial

/-- **A call that strays stops the process.** -/
theorem auxiliary_of_strays (h : relocation.Strays origin) :
    context.auxiliary origin referenceCount relocation = .error (.halt .overflow) := by
  obtain ⟨hcall, ⟨target, hvalue⟩, hbehind⟩ := h
  have hoperand := RelocationKind.operand_of_isCall hcall
  have hword : context.targetWord origin relocation target = .error (.halt .overflow) :=
    targetWord_eq_error.2 (.inl ⟨hcall, Address.after?_eq_none.2 hbehind, rfl⟩)
  simp only [auxiliary, hoperand, hvalue, hword, Except.map]

/-! ## 3. What stops the process in writing -/

theorem refuses_writeAuxiliaries (hsound : context.process.symbols.Sound)
    (relocations : List Relocation) :
    Refuses (Fault.ForSum (∃ relocation ∈ relocations, relocation.Strays origin))
      (context.writeAuxiliaries origin referenceCount relocations) := by
  induction relocations with
  | nil => exact refuses_pure _
  | cons relocation relocations ih =>
    refine (refuses_ofOutcome fun fault h => ?_).bind fun _ => (refuses_lift _).bind fun _ => ?_
    · exact (forSum_of_auxiliary hsound h).mono fun hstrays =>
        ⟨relocation, List.mem_cons_self, hstrays⟩
    · refine Refuses.bind (fun s t fault hrun => ?_) fun _ => refuses_pure _
      exact (ih hrun).mono fun ⟨other, hmem, hstrays⟩ =>
        ⟨other, List.mem_cons_of_mem _ hmem, hstrays⟩

/-- **Writing the relocations of a section stops the process only for a call that strays.** All of
    them lie in the section then, because their records are there. -/
theorem refuses_writeRelocations (hsound : context.process.symbols.Sound) (part : CodeSection) :
    Refuses (Fault.ForSum part.Strays) (context.writeRelocations referenceCount part) := by
  unfold Context.writeRelocations
  refine Refuses.unless (u := ()) ?_ ?_
  · trivial
  refine (refuses_lift _).bind fun _ => (refuses_lift _).bind fun _ => fun s t fault hrun => ?_
  rcases bind_error hrun with hrecords | ⟨_, middle, hrecords, hrest⟩
  · exact refuses_forM (fun _ => refuses_lift _) _ hrecords
  · obtain ⟨hinside, -⟩ :=
      forM_ok (fun _ _ _ _ hitem => writeRecord_ok (lift_eq_ok.1 hitem)) hrecords
    refine Refuses.bind (fun _ _ fault hwords => ?_)
      (fun _ => refuses_forM (fun _ => refuses_lift _) _) hrest
    exact (refuses_writeAuxiliaries hsound _ hwords).mono fun ⟨relocation, hmem, hstrays⟩ =>
      ⟨relocation, hmem, hstrays, hinside relocation hmem⟩

theorem refuses_length32 (part : Part) (length : Nat) :
    Refuses (Fault.ForSum sum)
      (ofOutcome (liftError (fun e => e) (Artifact.length32 part length)) : Encoding UInt32) :=
  refuses_ofOutcome fun _ h => (isError_of_liftError h).forSum

/-- A word is written over bytes below the last address. -/
theorem refuses_patchU32 {pos : Nat} (hpos : pos + 4 < addressSpace) (value : UInt32) :
    Refuses (Fault.ForSum sum) (patchU32 pos value) := by
  intro s t fault hrun
  rcases patchU32_cases pos value s with ⟨hspace, -⟩ | ⟨-, -, hpatch⟩ | ⟨-, -, hpatch⟩
  · exact absurd hpos (Nat.not_lt.2 hspace)
  · cases hpatch.symm.trans hrun
    trivial
  · cases hpatch.symm.trans hrun

theorem refuses_writeSection {start place : Nat} (part : CodeSection)
    (hplace : place + 4 < addressSpace) :
    Refuses (Fault.ForSum sum) (Artifact.writeSection start (part, place)) := by
  refine (refuses_lift _).bind fun _ => refuses_get.bind fun _ => (refuses_length32 _ _).bind
    fun _ => ?_
  exact (refuses_lift _).bind fun _ => refuses_patchU32 hplace _

/-- **Writing a payload stops the process only for a call that strays**, in an arena below the last
    address. -/
theorem forSum_of_writePayload (hsound : context.process.symbols.Sound) {capacity slots : Nat}
    (hfits : arena.Fits capacity slots) (hcapacity : capacity < addressSpace) {start : Nat}
    {fault : Fault CacheError}
    (h : context.writePayload artifact start arena = .error fault after) :
    fault.ForSum artifact.Strays := by
  rcases bind_error h with hname | ⟨_, named, hname, h⟩
  · exact refuses_lift _ hname
  have hnamed := (outlasts_fits.writeCString _).lift.ok hfits hname
  rcases bind_error h with halign | ⟨_, aligned, halign, h⟩
  · exact refuses_lift _ halign
  have haligned := outlasts_fits.align.lift.ok hnamed halign
  rcases bind_error h with hget | ⟨_, _, hget, h⟩
  · cases hget
  cases hget
  rcases bind_error h with hlink | ⟨_, _, hlink, h⟩
  · exact refuses_length32 _ _ hlink
  obtain ⟨-, rfl⟩ := length32_ok hlink
  rcases bind_error h with hplaces | ⟨places, described, hplaces, h⟩
  · exact Sections.refuses_mapM (fun _ => refuses_lift (Artifact.writeDescriptor _)) hplaces
  have hdescribed := (Sections.preserves_mapM fun _ =>
    (Artifact.preserves_writeDescriptor outlasts_fits _).lift).ok haligned hplaces
  -- The places of the sections stand in the arena, so that words are written over them below the
  -- last address.
  have hroom := hdescribed.room
  have hinside (kind : SectionKind) : places.get kind + 4 < addressSpace := by
    have := (Artifact.place_of_writeDescriptors hplaces kind).2
    omega
  refine Refuses.bind (Sections.refuses_mapM fun kind => ?_)
    (fun _ => (refuses_lift _).bind fun _ => ?_) h
  · have hplace := hinside kind
    cases kind <;> exact refuses_writeSection _ hplace
  refine (refuses_lift _).bind fun _ => (Sections.refuses_mapM fun kind => ?_).bind fun _ => ?_
  · intro _ _ _ hrun
    exact (refuses_writeRelocations hsound _ hrun).mono fun hstrays => ⟨kind, hstrays⟩
  refine (refuses_lift _).bind fun _ => (refuses_lift _).bind fun _ => (refuses_lift _).bind
    fun _ => ?_
  have htail : ∀ k : Unit → Encoding PayloadLayout,
      (∀ u, Refuses (Fault.ForSum artifact.Strays) (k u)) →
      Refuses (Fault.ForSum artifact.Strays) (if artifact.kind = .code then
        (liftM (Artifact.writeBlob .dependencies artifact.dependencies) : Encoding Unit) >>= k
      else k ()) :=
    fun k hk => refuses_ite ((refuses_lift _).bind hk) (hk ())
  refine htail _ fun _ => refuses_get.bind fun _ => (refuses_length32 _ _).bind fun _ => ?_
  exact (refuses_length32 _ _).bind fun _ => (refuses_length32 _ _).bind fun _ => refuses_pure _

/-- **Writing an artifact stops the process only for a call that strays.** -/
theorem forSum_of_writeArtifact (hsound : context.process.symbols.Sound) {capacity slots : Nat}
    (hfits : arena.Fits capacity slots) (hcapacity : capacity < addressSpace)
    {fault : Fault CacheError} (h : context.writeArtifact artifact arena = .error fault after) :
    fault.ForSum artifact.Strays := by
  rcases bind_error h with halign | ⟨_, aligned, halign, h⟩
  · exact refuses_lift _ halign
  have haligned := outlasts_fits.align.lift.ok hfits halign
  cases hrun : context.writePayload artifact aligned.position aligned with
  | ok layout last =>
    simp only [hrun] at h
    cases h
  | error cause last =>
    have hsum := forSum_of_writePayload hsound haligned hcapacity hrun
    simp only [hrun] at h
    cases cause <;> cases h
    · trivial
    · exact hsum

theorem writeArtifact_of_ok {aligned : Arena} {layout : PayloadLayout} {u : Unit}
    (halign : (liftM Arena.align : Encoding Unit) arena = .ok u aligned)
    (h : context.writePayload artifact aligned.position aligned = .ok layout after) :
    context.writeArtifact artifact arena = .ok layout after := by
  refine (bind_of_ok halign).trans ?_
  simp only [h]

/-- What stops the process is not taken back. -/
theorem writeArtifact_of_halt {aligned left : Arena} {why : Halt} {u : Unit}
    (halign : (liftM Arena.align : Encoding Unit) arena = .ok u aligned)
    (h : context.writePayload artifact aligned.position aligned = .error (.halt why) left) :
    context.writeArtifact artifact arena = .error (.halt why) left := by
  refine (bind_of_ok halign).trans ?_
  simp only [h]

/-- An artifact with a call that strays is not written. -/
theorem not_ok_of_strays (h : artifact.Strays) (layout : PayloadLayout) (after : Arena) :
    context.writeArtifact artifact arena ≠ .ok layout after := by
  intro hrun
  obtain ⟨kind, relocation, hmem, hstrays, -⟩ := h
  obtain ⟨encoded, hencodes, -⟩ := writeArtifact_ok hrun
  have hcoding := (hencodes.relocations kind).codes
  obtain ⟨auxiliary, -, hcodes⟩ := exists_of_forall₂ (List.Forall₂.flip hcoding) hmem
  cases (auxiliary_of_strays hstrays).symm.trans hcodes

end Context

/-! ## 4. What such a call leaves -/

/-- A relocation as a call of its own place, if it strays; this one needs no sum. -/
def Relocation.settled (origin : Address) (relocation : Relocation) : Relocation :=
  if relocation.kind.isCall && addressSpace ≤ origin.toNat + relocation.offset.toNat then
    match relocation.value with
    | .address _ => { relocation with value := .selfReference }
    | _ => relocation
  else relocation

/-- A section without calls that stray. -/
def CodeSection.settled (part : CodeSection) : CodeSection :=
  { part with relocations := part.relocations.map (·.settled part.origin) }

/-- An artifact without calls that stray. -/
def Artifact.settled (artifact : Artifact) : Artifact :=
  { artifact with sections := artifact.sections.map CodeSection.settled }

theorem Relocation.settled_cases (origin : Address) (relocation : Relocation) :
    relocation.Strays origin ∧
      relocation.settled origin = { relocation with value := .selfReference } ∨
      relocation.settled origin = relocation := by
  unfold settled
  split
  · rename_i hcall
    simp only [Bool.and_eq_true, decide_eq_true_eq] at hcall
    split
    · rename_i target hvalue
      exact .inl ⟨⟨hcall.1, ⟨target, hvalue⟩, hcall.2⟩, rfl⟩
    · exact .inr rfl
  · exact .inr rfl

namespace Context

variable {context : Context} {artifact : Artifact} {arena after : Arena} {origin : Address}
  {referenceCount : Nat} {relocation : Relocation}

/-- Where `other` ends well, so does `action`, in the same way, or a sum stops the process in it,
    and what the arena held is still there. -/
def Falters (action other : Encoding α) : Prop :=
  ∀ ⦃s t a⦄, other s = .ok a t → action s = .ok a t ∨
    ∃ left, action s = .error (.halt .overflow) left ∧ PartAt left.bytes 0 s.bytes

/-- What an action does that appends. -/
theorem Falters.bind {x y : Encoding α} {f g : α → Encoding β} (hx : Falters x y)
    (happends : ∀ ⦃s t a⦄, y s = .ok a t → PartAt t.bytes 0 s.bytes)
    (hf : ∀ a, Falters (f a) (g a)) :
    Falters (x >>= f) (y >>= g) := by
  intro s t b hrun
  obtain ⟨a, middle, hfirst, hrest⟩ := bind_ok hrun
  rcases hx hfirst with hsame | ⟨left, hstop, hkept⟩
  · rcases hf a hrest with hlast | ⟨left, hstop, hkept⟩
    · exact .inl (by rw [bind_of_ok hsame, hlast])
    · exact .inr ⟨left, by rw [bind_of_ok hsame, hstop], (hkept.trans (happends hfirst))⟩
  · exact .inr ⟨left, bind_of_error hstop, hkept⟩

theorem falters_self (action : Encoding α) : Falters action action := fun _ _ _ h => .inl h

/-- A refusal before a chain, under the same condition in both. -/
theorem Falters.unless {c : Prop} [Decidable c] {fault : Fault CacheError} {f g : α → Encoding β}
    {u : α} (h : Falters (f u) (g u)) :
    Falters (if c then (throw fault : Encoding α) >>= f else f u)
      (if c then (throw fault : Encoding α) >>= g else g u) := by
  split
  · rename_i hc
    intro s t b hrun
    obtain ⟨_, _, hthrow, -⟩ := bind_ok hrun
    cases hthrow
  · exact h

theorem grows_extend (arena : Arena) (part : Bytes) :
    PartAt (arena.extend part).bytes 0 arena.bytes :=
  (partAt_self arena.bytes).append_right part

theorem grows_write (data : Bytes) ⦃s t : Arena⦄ ⦃offset : Nat⦄
    (h : (liftM (write data) : Encoding Nat) s = .ok offset t) : PartAt t.bytes 0 s.bytes := by
  rw [(write_ok (lift_eq_ok.1 h)).2]
  exact grows_extend s data

/-- **The words of relocations are those of the settled ones, up to a call that strays.** -/
theorem falters_writeAuxiliaries (relocations : List Relocation) :
    Falters (context.writeAuxiliaries origin referenceCount relocations)
      (context.writeAuxiliaries origin referenceCount (relocations.map (·.settled origin))) := by
  induction relocations with
  | nil => exact falters_self _
  | cons relocation relocations ih =>
    rw [List.map_cons]
    unfold writeAuxiliaries
    refine Falters.bind (fun s t a hrun => ?_) (fun s t a hrun => ?_) fun auxiliary => ?_
    · rcases relocation.settled_cases origin with ⟨hstrays, -⟩ | hsame
      · refine .inr ⟨s, ?_, partAt_self _⟩
        rw [auxiliary_of_strays hstrays]
        rfl
      · rw [hsame] at hrun
        exact .inl hrun
    · obtain ⟨-, rfl⟩ := ofOutcome_eq_ok.1 hrun
      exact partAt_self _
    · refine Falters.bind (falters_self _) (grows_write _) fun _ => ?_
      refine Falters.bind ih (fun s t a hrun => ?_) fun _ => falters_self _
      obtain ⟨_, -, -, rfl⟩ := writeAuxiliaries_ok hrun
      exact grows_extend s _

/-- Records do not say what a relocation is bound to. -/
theorem records_settled (sectionSize : Nat) (relocations : List Relocation) :
    (relocations.map (·.settled origin)).forM
        (fun relocation => (liftM (writeRecord sectionSize relocation) : Encoding Unit)) =
      relocations.forM fun relocation =>
        (liftM (writeRecord sectionSize relocation) : Encoding Unit) := by
  have hrecord : ∀ relocation : Relocation, writeRecord sectionSize (relocation.settled origin) =
      writeRecord sectionSize relocation := by
    intro relocation
    rcases relocation.settled_cases origin with ⟨-, hsettled⟩ | hsame
    · rw [hsettled]
      rfl
    · rw [hsame]
  simp only [List.forM_eq_forM, List.forM_map, hrecord]

/-- **The relocations of a section are written as those of the settled section, up to a call that
    strays.** -/
theorem falters_writeRelocations (part : CodeSection) :
    Falters (context.writeRelocations referenceCount part)
      (context.writeRelocations referenceCount part.settled) := by
  have hlength : part.settled.relocations.length = part.relocations.length := List.length_map _
  have hrecords : part.settled.relocations.forM
        (fun relocation =>
          (liftM (writeRecord part.settled.bytes.size relocation) : Encoding Unit)) =
      part.relocations.forM fun relocation =>
        (liftM (writeRecord part.bytes.size relocation) : Encoding Unit) :=
    records_settled part.bytes.size part.relocations
  unfold Context.writeRelocations
  rw [hlength, hrecords]
  refine Falters.unless (u := ()) ?_
  refine Falters.bind (falters_self _) (grows_write _) fun _ => ?_
  refine Falters.bind (falters_self _) (grows_write _) fun _ => ?_
  refine Falters.bind (falters_self _) (fun s t a hrun => ?_) fun _ => ?_
  · obtain ⟨-, rfl⟩ := forM_ok (fun _ _ _ _ hitem => writeRecord_ok (lift_eq_ok.1 hitem)) hrun
    exact grows_extend s _
  · refine Falters.bind (falters_writeAuxiliaries part.relocations) (fun s t a hrun => ?_) fun _ =>
      falters_self _
    obtain ⟨_, -, -, rfl⟩ := writeAuxiliaries_ok hrun
    exact grows_extend s _

theorem grows_writeRelocations (part : CodeSection) ⦃s t : Arena⦄ ⦃u : Unit⦄
    (h : context.writeRelocations referenceCount part s = .ok u t) : PartAt t.bytes 0 s.bytes := by
  obtain ⟨_, -, rfl⟩ := writeRelocations_ok h
  exact grows_extend s _

theorem falters_allRelocations (sections : Sections CodeSection) :
    Falters (sections.mapM (context.writeRelocations referenceCount))
      ((sections.map CodeSection.settled).mapM (context.writeRelocations referenceCount)) := by
  refine Falters.bind (falters_writeRelocations _) (grows_writeRelocations _) fun _ => ?_
  refine Falters.bind (falters_writeRelocations _) (grows_writeRelocations _) fun _ => ?_
  exact Falters.bind (falters_writeRelocations _) (grows_writeRelocations _) fun _ => falters_self _

/-- **A payload whose settled form is written is written, or stops the process with its code in the
    arena.** -/
theorem writePayload_of_settled {layout : PayloadLayout}
    (hstart : arena.position % dataAlignment = 0)
    (h : context.writePayload artifact.settled arena.position arena = .ok layout after) :
    context.writePayload artifact arena.position arena = .ok layout after ∨
      ∃ left, context.writePayload artifact arena.position arena = .error (.halt .overflow) left ∧
        PartAt left.bytes 0 (arena.bytes ++ artifact.codeBytes) := by
  obtain ⟨⟨nameAt, nameSize⟩, named, hname, h⟩ := bind_ok h
  obtain ⟨-, -, -, hnamed⟩ := writeCString_ok (lift_eq_ok.1 hname)
  obtain ⟨_, aligned, halign, h⟩ := bind_ok h
  have haligned := align_since hstart (by rw [hnamed, bytes_extend]) (lift_eq_ok.1 halign)
  obtain ⟨_, _, hget, h⟩ := bind_ok h
  cases hget
  obtain ⟨codeOffset, _, hlink, h⟩ := bind_ok h
  obtain ⟨-, rfl⟩ := length32_ok hlink
  have hbytes : aligned.bytes = arena.bytes ++ artifact.settled.nameBytes := by
    rw [haligned, hnamed, extend_extend, bytes_extend, Artifact.nameBytes, padded]
  obtain ⟨places, described, hdescriptors, h⟩ := bind_ok h
  obtain ⟨_, coded, hsections, h⟩ := bind_ok h
  obtain ⟨-, hcoded⟩ := Artifact.writeCode_ok hstart hbytes hdescriptors hsections
  have hsame : artifact.settled.codeBytes = artifact.codeBytes := rfl
  -- Up to here the artifact is written as its settled form is.
  have hfirst : (liftM (writeCString artifact.name) : Encoding (Nat × Nat)) arena =
      .ok (nameAt, nameSize) named :=
    hname
  have hget : (get : Encoding Arena) aligned = .ok aligned aligned := rfl
  have hdescribed : (artifact.sections.zip Sections.kinds).mapM
      (fun slot => (liftM (Artifact.writeDescriptor slot) : Encoding Nat)) aligned =
        .ok places described :=
    hdescriptors
  have hwritten : (artifact.sections.zip places).mapM (Artifact.writeSection arena.position)
      described = .ok _ coded :=
    hsections
  rw [← hsame, ← hcoded]
  unfold writePayload
  rw [bind_of_ok hfirst]
  dsimp only
  rw [bind_of_ok halign, bind_of_ok hget, bind_of_ok hlink, bind_of_ok hdescribed,
    bind_of_ok hwritten]
  refine Falters.bind (falters_self _) (fun s t u hrun => ?_) (fun _ => ?_) h
  · rw [align_ok (lift_eq_ok.1 hrun)]
    exact grows_extend s _
  refine Falters.bind (falters_self _) (fun s t u hrun => ?_) fun _ => ?_
  · obtain ⟨-, rfl⟩ := Artifact.writeCount_ok (lift_eq_ok.1 hrun)
    exact grows_extend s _
  refine Falters.bind (falters_allRelocations _) (fun s t u hrun => ?_) fun _ => falters_self _
  obtain ⟨_, -, rfl⟩ := writeAllRelocations_ok hrun
  exact grows_extend s _

/-- **An artifact with a call that strays, whose settled form is written, stops the process; its
    code stays in the arena.** -/
theorem halts_of_settled {layout : PayloadLayout} (hstrays : artifact.Strays)
    (h : context.writeArtifact artifact.settled arena = .ok layout after) :
    ∃ left, context.writeArtifact artifact arena = .error (.halt .overflow) left ∧
      PartAt left.bytes 0
        (arena.bytes ++ zeros (paddingAfter arena.position) ++ artifact.codeBytes) := by
  obtain ⟨_, aligned, halign, h⟩ := bind_ok h
  have haligned := align_ok (lift_eq_ok.1 halign)
  have hstart : aligned.position % dataAlignment = 0 := by
    rw [haligned, position_extend, size_zeros, ← alignUp_eq, alignUp_mod]
  cases hrun : context.writePayload artifact.settled aligned.position aligned with
  | error fault last =>
    simp only [hrun] at h
    cases fault <;> cases h
  | ok written last =>
    rcases writePayload_of_settled hstart hrun with hsame | ⟨left, hstop, hkept⟩
    · exact absurd (writeArtifact_of_ok halign hsame) (not_ok_of_strays hstrays written last)
    · refine ⟨left, writeArtifact_of_halt halign hstop, ?_⟩
      rw [haligned] at hkept
      exact hkept

end Context

end CodeVault
