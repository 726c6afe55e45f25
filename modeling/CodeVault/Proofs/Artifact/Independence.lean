import CodeVault.Proofs.Arena.Alike
import CodeVault.Proofs.Artifact.Payload
import CodeVault.Proofs.Artifact.Renaming

/-!
# Payloads do not depend on addresses

An artifact is written in one process, and the artifact with other addresses in a process whose
addresses are those.

* Writers that are given no address mirror themselves, from references up to tables;
* the descriptors of sections write an address, at places that are hidden
  (`follows_writeDescriptors`);
* **what is written of the one artifact is what is written of the other, but for the addresses that
  the sections were generated at** (`writeArtifact_rename`).
-/

namespace CodeVault

open Arena Bytes Container Function

variable {α : Type} {hidden : Nat → Prop} {ρ : Address → Address} {s t : Arena}

/-! ## 1. Writers without addresses -/

theorem TypeDescriptor.mirrors_write (type : TypeDescriptor) :
    Mirrors hidden type.write type.write :=
  (Arena.mirrors_write _).bind fun _ => (mirrors_writeString _).bind fun _ => mirrors_pure _

theorem Reference.mirrors_write (reference : Reference) :
    Mirrors hidden reference.write reference.write := by
  refine (Arena.mirrors_write _).bind fun _ => ?_
  cases reference with
  | noData | null | systemLoader | platformLoader => exact mirrors_pure _
  | type descriptor => exact descriptor.mirrors_write
  | method descriptor =>
    refine descriptor.holder.mirrors_write.bind fun _ => (mirrors_writeString _).bind fun _ => ?_
    exact (mirrors_writeString _).bind fun _ => mirrors_pure _
  | string text => exact (mirrors_writeString text).bind fun _ => mirrors_pure _
  | primitive p => exact (Arena.mirrors_write _).bind fun _ => mirrors_pure _
  | sharedType n | sharedMethod n | sharedString n =>
    exact (Arena.mirrors_write _).bind fun _ => mirrors_pure _

namespace Artifact

theorem mirrors_writeWord (v : UInt32) : Mirrors hidden (writeWord v) (writeWord v) :=
  (mirrors_write _).bind fun _ => mirrors_pure _

theorem mirrors_writeCount (part : Part) (length : Nat) :
    Mirrors hidden (writeCount part length) (writeCount part length) :=
  (mirrors_ofOutcome fun _ h => h).bind fun _ => (mirrors_write _).bind fun _ => mirrors_pure _

theorem mirrors_writeBlob (part : Part) (bytes : Bytes) :
    Mirrors hidden (writeBlob part bytes) (writeBlob part bytes) :=
  (mirrors_writeCount part _).bind fun _ => (mirrors_write _).bind fun _ => mirrors_pure _

theorem mirrors_writeList {item : α → Writing Unit} (part : Part)
    (h : ∀ a, Mirrors hidden (item a) (item a)) (items : List α) :
    Mirrors hidden (writeList part item items) (writeList part item items) :=
  (mirrors_writeCount part _).bind fun _ => mirrors_forM_self h items

theorem mirrors_writeTables (artifact : Artifact) :
    Mirrors hidden artifact.writeTables artifact.writeTables := by
  refine (mirrors_writeWord _).bind fun _ => (mirrors_writeList _ mirrors_writeWord _).bind
    fun _ => ?_
  refine (mirrors_writeList _ (fun map => ?_) _).bind fun _ => ?_
  · exact (mirrors_writeWord _).bind fun _ => mirrors_writeList _ mirrors_writeWord _
  refine (mirrors_writeList _ (fun desc => ?_) _).bind fun _ => ?_
  · refine (mirrors_writeWord _).bind fun _ => (mirrors_write _).bind fun _ =>
      (mirrors_write _).bind fun _ => ?_
    exact mirrors_writeWord _
  refine (mirrors_writeBlob _ _).bind fun _ => (mirrors_writeList _ (fun handler => ?_) _).bind
    fun _ => ?_
  · exact (mirrors_writeWord _).bind fun _ => (mirrors_writeWord _).bind fun _ =>
      mirrors_writeWord _
  exact mirrors_writeList _ (fun check => (mirrors_writeWord _).bind fun _ => mirrors_writeWord _) _

/-! ## 2. Sections -/

/-- **Descriptors differ in the address alone**, which is written eight bytes behind their start. -/
theorem follows_writeDescriptor {part : CodeSection} {expected : SectionKind}
    (h : AlikeBut hidden s t) (hhidden : ∀ i < 8, hidden (s.position + 8 + i)) :
    Follows hidden (writeDescriptor (part, expected) s)
      (writeDescriptor (part.rename ρ, expected) t) := by
  unfold writeDescriptor
  refine Follows.unless (u := ()) ?_
  refine (mirrors_writeWord _ h).bind fun _ s₁ t₁ hkind h₁ => ?_
  obtain rfl := (carries_writeWord _).appends hkind
  refine (mirrors_ofOutcome (fun _ h => h) h₁).bind fun _ s₂ t₂ hlength h₂ => ?_
  obtain ⟨-, rfl⟩ := ofOutcome_eq_ok.1 hlength
  refine (mirrors_writeWord _ h₂).bind fun _ s₃ t₃ hsize h₃ => ?_
  obtain rfl := (carries_writeWord _).appends hsize
  refine (follows_write h₃ (by rw [size_ofU64, size_ofU64]) fun i hi => ?_).bind
    fun _ s₄ t₄ _ h₄ => ?_
  · -- Behind the address nothing was written, and the address is hidden.
    have hbehind : 8 ≤ i := by
      by_contra hlt
      refine hi ?_
      rw [position_extend, position_extend, size_ofU32, size_ofU32, Nat.add_assoc s.position 4 4]
      exact hhidden i (by omega)
    rw [Array.getElem?_eq_none (by rw [size_ofU64]; exact hbehind),
      Array.getElem?_eq_none (by rw [size_ofU64]; exact hbehind)]
  · exact ((mirrors_write _).bind fun _ => (mirrors_writeWord _).bind fun _ => mirrors_pure _) h₄

/-- The addresses in three descriptors that stand from `place` on are hidden. -/
def HidesOrigins (hidden : Nat → Prop) (place : Nat) : Prop :=
  ∀ slot < 3, ∀ i < 8, hidden (place + slot * SectionDescriptor.encodedSize + 8 + i)

theorem follows_writeDescriptors {artifact : Artifact} (h : AlikeBut hidden s t)
    (hhidden : HidesOrigins hidden s.position) :
    Follows hidden
      ((artifact.sections.zip Sections.kinds).mapM
        (fun slot => (liftM (writeDescriptor slot) : Encoding Nat)) s)
      (((artifact.rename ρ).sections.zip Sections.kinds).mapM
        (fun slot => (liftM (writeDescriptor slot) : Encoding Nat)) t) := by
  have hplace : ∀ slot < 3, ∀ i < 8, ∀ place,
      place = s.position + slot * SectionDescriptor.encodedSize → hidden (place + 8 + i) := by
    rintro slot hslot i hi place rfl
    exact hhidden slot hslot i hi
  refine (follows_writeDescriptor h fun i hi => ?_).lift.bind fun _ s₁ t₁ hconsts h₁ => ?_
  · exact hplace 0 (by decide) i hi _ (by rw [Nat.zero_mul, Nat.add_zero])
  obtain ⟨-, -, -, rfl⟩ := writeDescriptor_ok (lift_eq_ok.1 hconsts)
  refine (follows_writeDescriptor h₁ fun i hi => ?_).lift.bind fun _ s₂ t₂ hinsts h₂ => ?_
  · exact hplace 1 (by decide) i hi _
      (by rw [position_extend, SectionDescriptor.size_encode, Nat.one_mul])
  obtain ⟨-, -, -, rfl⟩ := writeDescriptor_ok (lift_eq_ok.1 hinsts)
  refine (follows_writeDescriptor h₂ fun i hi => ?_).lift.bind fun _ s₃ t₃ _ h₃ => ?_
  · exact hplace 2 (by decide) i hi _
      (by rw [position_extend, position_extend, SectionDescriptor.size_encode,
        SectionDescriptor.size_encode]
          omega)
  · exact mirrors_pure _ h₃

theorem mirrors_writeSection (start place : Nat) (part : CodeSection) :
    Mirrors hidden (writeSection start (part, place))
      (writeSection start (part.rename ρ, place)) := by
  refine mirrors_align.lift.bind fun _ => Mirrors.bind_get fun s t h => ?_
  rw [h.position]
  refine (mirrors_ofOutcome fun _ h => h).bind fun _ => (mirrors_write _).lift.bind fun _ => ?_
  exact mirrors_patchU32 _ _

end Artifact

/-- The bytes of a payload at which the descriptors say where their sections were generated. -/
def PayloadLayout.IsOrigin (layout : PayloadLayout) (i : Nat) : Prop :=
  ∃ slot < 3, ∃ k < 8, i = layout.codeOffset.toNat + slot * SectionDescriptor.encodedSize + 8 + k

/-- What differs when a payload was written in two processes: what was there before it, of which
    nothing is known, and those bytes of it. -/
def PayloadLayout.Differs (layout : PayloadLayout) (j : Nat) : Prop :=
  j < layout.offset ∨ layout.IsOrigin (j - layout.offset)

theorem PayloadLayout.hidesOrigins (layout : PayloadLayout) :
    Artifact.HidesOrigins layout.Differs (layout.offset + layout.codeOffset.toNat) := by
  intro slot hslot k hk
  exact .inr ⟨slot, hslot, k, hk, by omega⟩

/-- A byte of the payload that is no part of those addresses does not differ. -/
theorem PayloadLayout.not_differs {layout : PayloadLayout} {i : Nat} (h : ¬ layout.IsOrigin i) :
    ¬ layout.Differs (layout.offset + i) := by
  rintro (hbefore | horigin)
  · omega
  · rw [Nat.add_sub_cancel_left] at horigin
    exact h horigin

/-- Arenas that are alike are so but for what was written before a payload. -/
theorem PayloadLayout.alikeBut (layout : PayloadLayout) (h : Alike s t)
    (hbefore : s.position ≤ layout.offset) :
    AlikeBut layout.Differs s t := by
  refine ⟨h, fun j hj => ?_⟩
  have hbehind : s.bytes.size ≤ j := Nat.le_trans hbefore (Nat.not_lt.1 fun hlt => hj (.inl hlt))
  have hsize : t.bytes.size = s.bytes.size := h.position
  rw [Array.getElem?_eq_none (by omega), Array.getElem?_eq_none hbehind]

/-- Three actions mirror three others when they do so one by one. -/
theorem Sections.mirrors_mapM {ε β γ : Type} {f : α → EStateM ε Arena β} {g : γ → EStateM ε Arena β}
    {parts : Sections α} {others : Sections γ}
    (h : ∀ kind, Mirrors hidden (f (parts.get kind)) (g (others.get kind))) :
    Mirrors hidden (parts.mapM f) (others.mapM g) :=
  (h .consts).bind fun _ => (h .insts).bind fun _ => (h .stubs).bind fun _ => mirrors_pure _

namespace Context

variable {p q : LiveProcess} {forPreload : Bool} {artifact : Artifact} {part : CodeSection}

/-! ## 3. Relocations and references -/

theorem mirrors_writeAuxiliaries (hρ : Injective ρ) (h : p.Renamed ρ q) (hsites : part.SitesKept ρ)
    (referenceCount : Nat) {relocations : List Relocation}
    (hsub : ∀ relocation ∈ relocations, relocation ∈ part.relocations) :
    Mirrors hidden (writeAuxiliaries ⟨p, forPreload⟩ part.origin referenceCount relocations)
      (writeAuxiliaries ⟨q, forPreload⟩ (ρ part.origin) referenceCount
        (relocations.map (·.rename ρ))) := by
  induction relocations with
  | nil => exact mirrors_pure _
  | cons relocation relocations ih =>
    obtain ⟨hmem, hrest⟩ := List.forall_mem_cons.1 hsub
    refine (mirrors_ofOutcome fun _ haux => auxiliary_rename hρ h hsites hmem haux).bind fun _ => ?_
    exact (mirrors_write _).lift.bind fun _ => (ih hrest).bind fun _ => mirrors_pure _

theorem mirrors_writeRecord (sectionSize : Nat) (relocation : Relocation) :
    Mirrors hidden (writeRecord sectionSize relocation) (writeRecord sectionSize relocation) := by
  unfold writeRecord
  refine Mirrors.unless (u := ()) ?_
  refine (mirrors_write _).bind fun _ => (mirrors_write _).bind fun _ => (mirrors_write _).bind
    fun _ => ?_
  exact (mirrors_write _).bind fun _ => mirrors_pure _

theorem mirrors_writeRelocations (hρ : Injective ρ) (h : p.Renamed ρ q) (hsites : part.SitesKept ρ)
    (referenceCount : Nat) :
    Mirrors hidden (writeRelocations ⟨p, forPreload⟩ referenceCount part)
      (writeRelocations ⟨q, forPreload⟩ referenceCount (part.rename ρ)) := by
  have hlength : (part.rename ρ).relocations.length = part.relocations.length := List.length_map _
  unfold Context.writeRelocations
  rw [hlength]
  refine Mirrors.unless (u := ()) ?_
  refine (mirrors_write _).lift.bind fun _ => (mirrors_write _).lift.bind fun _ => ?_
  have hrecords : List.Forall₂ (fun relocation other : Relocation => other = relocation.rename ρ)
      part.relocations (part.rename ρ).relocations :=
    List.forall₂_map_right_iff.2 (List.forall₂_same.2 fun _ _ => rfl)
  refine (mirrors_forM hrecords fun relocation other hother => ?_).bind fun _ => ?_
  · -- The record is the same, since it does not hold the value.
    subst hother
    exact (mirrors_writeRecord _ relocation).lift
  · refine (mirrors_writeAuxiliaries hρ h hsites referenceCount fun _ hmem => hmem).bind fun _ => ?_
    exact mirrors_forM_self (fun reference => reference.mirrors_write.lift) _

theorem mirrors_writeReferences (hρ : Injective ρ) (h : p.Renamed ρ q)
    (values : List EmbeddedValue) :
    Mirrors hidden (writeReferences ⟨p, forPreload⟩ values)
      (writeReferences ⟨q, forPreload⟩ (values.map (·.rename ρ))) := by
  induction values with
  | nil => exact mirrors_pure _
  | cons value values ih =>
    rw [List.map_cons, writeReferences, writeReferences, encodeValue_rename hρ h]
    cases encodeValue ⟨p, forPreload⟩ value with
    | ok reference => exact reference.mirrors_write.bind fun _ => ih
    | error cause =>
      intro s t _ u last hrun
      obtain ⟨_, _, hthrow, -⟩ := bind_ok hrun
      cases hthrow

/-! ## 4. The payload -/

/-- **The payload in the one process follows the payload in the other**, if the addresses of its
    descriptors are hidden. -/
theorem follows_writePayload (hρ : Injective ρ) (h : p.Renamed ρ q)
    (hsites : ∀ kind, (artifact.sections.get kind).SitesKept ρ) (start : Nat)
    (halike : AlikeBut hidden s t)
    (hhidden : Artifact.HidesOrigins hidden
      (alignUp (s.position + ((ofString artifact.name).size + 1)))) :
    Follows hidden (writePayload ⟨p, forPreload⟩ artifact start s)
      (writePayload ⟨q, forPreload⟩ (artifact.rename ρ) start t) := by
  have hkind : ∀ kind, (artifact.rename ρ).sections.get kind =
      (artifact.sections.get kind).rename ρ :=
    fun kind => by cases kind <;> rfl
  refine (mirrors_writeCString artifact.name halike).lift.bind fun named s₁ t₁ hname h₁ => ?_
  obtain ⟨-, -, -, rfl⟩ := writeCString_ok (lift_eq_ok.1 hname)
  refine (mirrors_align h₁).lift.bind fun _ s₂ t₂ halign h₂ => ?_
  have hposition : s₂.position = alignUp (s.position + ((ofString artifact.name).size + 1)) := by
    rw [align_ok (lift_eq_ok.1 halign), position_extend, position_extend, size_zeros, alignUp_eq,
      Array.size_push]
  refine Follows.bind_get ?_
  rw [h₂.position]
  refine (mirrors_ofOutcome (fun _ hlink => hlink) h₂).bind fun codeOffset s₃ t₃ hlink h₃ => ?_
  obtain ⟨-, rfl⟩ := ofOutcome_eq_ok.1 hlink
  rw [← hposition] at hhidden
  refine (Artifact.follows_writeDescriptors h₃ hhidden).bind fun places s₄ t₄ _ h₄ => ?_
  -- No address is written from here on.
  refine Mirrors.bind (Sections.mirrors_mapM fun kind => ?_) (fun _ => ?_) h₄
  · cases kind <;> exact Artifact.mirrors_writeSection _ _ _
  refine mirrors_align.lift.bind fun _ => ?_
  have hcount : (artifact.rename ρ).references.length = artifact.references.length :=
    List.length_map _
  rw [hcount]
  refine (Artifact.mirrors_writeCount _ _).lift.bind fun _ => ?_
  refine (Sections.mirrors_mapM fun kind => ?_).bind fun _ => ?_
  · rw [hkind]
    exact mirrors_writeRelocations hρ h (hsites kind) _
  refine mirrors_align.lift.bind fun _ => artifact.mirrors_writeTables.lift.bind fun _ => ?_
  refine (mirrors_writeReferences hρ h _).lift.bind fun _ => ?_
  refine Mirrors.when (Artifact.mirrors_writeBlob _ _).lift (Mirrors.bind_get fun s t hlast => ?_)
  rw [hlast.position]
  refine (mirrors_ofOutcome fun _ hlink => hlink).bind fun _ => ?_
  refine (mirrors_ofOutcome fun _ hlink => hlink).bind fun _ => ?_
  exact (mirrors_ofOutcome fun _ hlink => hlink).bind fun _ => mirrors_pure _

theorem follows_writeArtifact (hρ : Injective ρ) (h : p.Renamed ρ q)
    (hsites : ∀ kind, (artifact.sections.get kind).SitesKept ρ) (halike : AlikeBut hidden s t)
    (hhidden : Artifact.HidesOrigins hidden (alignUp s.position + artifact.nameBytes.size)) :
    Follows hidden (writeArtifact ⟨p, forPreload⟩ artifact s)
      (writeArtifact ⟨q, forPreload⟩ (artifact.rename ρ) t) := by
  refine (mirrors_align halike).lift.bind fun _ s₁ t₁ halign h₁ => ?_
  have hposition : s₁.position = alignUp s.position := by
    rw [align_ok (lift_eq_ok.1 halign), position_extend, size_zeros, alignUp_eq]
  have hname : alignUp (s₁.position + ((ofString artifact.name).size + 1))
      = alignUp s.position + artifact.nameBytes.size := by
    rw [hposition, alignUp_add (alignUp_mod _), Artifact.nameBytes, size_padded, Array.size_push]
  rw [← hname] at hhidden
  intro layout after hrun
  have hpayload : Follows hidden (writePayload ⟨p, forPreload⟩ artifact s₁.position s₁)
      (writePayload ⟨q, forPreload⟩ (artifact.rename ρ) s₁.position t₁) :=
    follows_writePayload hρ h hsites s₁.position h₁ hhidden
  dsimp only at hrun ⊢
  cases hwritten : writePayload ⟨p, forPreload⟩ artifact s₁.position s₁ with
  | error fault last =>
    rw [hwritten] at hrun
    cases fault <;> cases hrun
  | ok found last =>
    rw [hwritten] at hrun
    cases hrun
    obtain ⟨last', hother, hlast⟩ := hpayload hwritten
    refine ⟨last', ?_, hlast⟩
    rw [h₁.position, hother]

/-! ## 5. Two processes -/

/-- **Payloads do not depend on addresses.** If an artifact is written in one process, then the
    artifact with other addresses is written in a process whose addresses are those, from any arena
    that is alike, at the same place with the same layout; and the payloads are the same, byte for
    byte, but for the three addresses that the sections were generated at. -/
theorem writeArtifact_rename (hρ : Injective ρ) (h : p.Renamed ρ q)
    (hsites : ∀ kind, (artifact.sections.get kind).SitesKept ρ) {arena other after : Arena}
    (halike : Alike arena other) {layout : PayloadLayout}
    (hrun : writeArtifact ⟨p, forPreload⟩ artifact arena = .ok layout after) :
    ∃ after' payload payload',
      writeArtifact ⟨q, forPreload⟩ (artifact.rename ρ) other = .ok layout after' ∧
      after.bytes.slice? layout.offset layout.size = some payload ∧
      after'.bytes.slice? layout.offset layout.size = some payload' ∧
      ∀ i, ¬ layout.IsOrigin i → payload'[i]? = payload[i]? := by
  obtain ⟨encoded, -, hbytes, hlayout⟩ := writeArtifact_ok hrun
  have hstart : AlikeBut layout.Differs arena other := by
    refine layout.alikeBut halike ?_
    rw [hlayout.offset]
    exact le_alignUp arena.position
  have hhidden := layout.hidesOrigins
  rw [hlayout.offset, hlayout.codeOffset] at hhidden
  obtain ⟨after', hother, hafter⟩ := follows_writeArtifact hρ h hsites hstart hhidden hrun
  have hsize : after'.bytes.size = after.bytes.size := hafter.position
  have hinside : layout.offset + layout.size ≤ after.bytes.size := by
    rw [hbytes, hlayout.offset, hlayout.size, Array.size_append, Array.size_append, size_zeros,
      alignUp_eq]
    exact Nat.le_refl _
  obtain ⟨payload, hpayload⟩ := Option.isSome_iff_exists.1 (slice?_isSome.2 hinside)
  obtain ⟨payload', hpayload'⟩ := Option.isSome_iff_exists.1
    (slice?_isSome.2 (Nat.le_trans hinside (Nat.le_of_eq hsize.symm)))
  refine ⟨after', payload, payload', hother, hpayload, hpayload', fun i hi => ?_⟩
  rw [getElem?_of_slice? hpayload, getElem?_of_slice? hpayload']
  split
  · exact hafter.same _ (PayloadLayout.not_differs hi)
  · rfl

/-! An example: all of a process is slid to higher addresses. -/

/-- The addresses after the slide. -/
def slide (addr : Address) : Address := addr + 1048576

theorem toNat_slide (addr : Address) :
    (slide addr).toNat = (addr.toNat + 1048576) % addressSpace := by
  rw [slide, UInt64.toNat_add, addressSpace]
  simp

/-- Distances are kept by the slide in a region that is not slid out of the 64-bit range. -/
theorem within?_slide {start : Address} {size : Nat}
    (hfits : start.toNat + size + 1048576 ≤ addressSpace) (addr : Address) :
    (slide addr).within? (slide start) size = addr.within? start size := by
  have haddr := toNat_slide addr
  have hstart := toNat_slide start
  have hlt : addr.toNat < addressSpace := addr.toNat_lt
  simp only [addressSpace] at hfits haddr hstart hlt
  simp only [Address.within?, UInt64.le_iff_toNat_le]
  by_cases hinside : start.toNat ≤ addr.toNat ∧ addr.toNat - start.toNat < size
  · rw [if_pos hinside, if_pos (by omega)]
    exact congrArg some (by omega)
  · rw [if_neg hinside, if_neg (by omega)]

theorem slide_injective : Injective slide := fun _ _ h => (UInt64.add_left_inj 1048576).1 h

/-- A process with a routine, a string, an anchor, and an image, whose addresses are moved. -/
def settled (move : Address → Address) : LiveProcess where
  symbols :=
    (SymbolTable.empty ⟨move 4096, 256⟩ fun serial =>
      move (UInt64.ofNat (36864 + 16 * serial))).after
    [.installed (.early ⟨[move 12288], [], []⟩), .interned (move 20480) SymbolTable.letters]
  image := .mapped (move 65536) 4096 []
  resolver :=
    { describeType := fun handle => if handle = ⟨move 28672⟩ then
      some ⟨"T", .boot, .linked, false⟩ else none
      describeMethod := fun _ => none
      describeString := fun _ => none
      findType := fun _ _ => none
      findMethod := fun _ _ _ => none
      internString := fun _ => none }

/-- Code that calls itself and the routine, points at the string and into the anchor region, and
    holds a type of the image; its table holds a type that is not in the image. -/
def settledCode : Artifact :=
  { Artifact.method "stub" 1 0 with
    kind := .stub
    sections := ⟨.empty .consts, ⟨.insts, 8192, zeros 24, 24,
      [⟨.runtimeCall, 4, 0, .address 8196⟩, ⟨.runtimeCall, 8, 0, .address 12288⟩,
       ⟨.externalWord, 8, 0, .address 20480⟩, ⟨.externalWord, 16, 0, .address 4100⟩,
       ⟨.metadata, 12, 0, .immediate (.type ⟨65544⟩)⟩]⟩, .empty .stubs⟩
    references := [.type ⟨28672⟩] }

theorem settled_image : (settled id).image = .mapped 65536 4096 [] := rfl

theorem settled_renamed : (settled id).Renamed slide (settled slide) where
  symbols := ⟨⟨4096, 256⟩, _, _, rfl, rfl⟩
  anchor addr distance h := by
    have hanchor : ∀ move, (settled move).symbols.anchor = ⟨move 4096, 256⟩ :=
      fun move => SymbolTable.anchor_after _ _
    rw [hanchor] at h ⊢
    exact (within?_slide (by decide) addr).trans h
  image := rfl
  distance addr := by
    have hwithin : (slide addr).within? (slide 65536) 4096 = addr.within? 65536 4096 :=
      within?_slide (by decide) addr
    rw [show (settled slide).image = (settled id).image.rename slide from rfl, settled_image]
    exact BaseImage.distance?_rename hwithin
  types handle := by
    have hsame : handle.rename slide = ⟨slide 28672⟩ ↔ handle = ⟨28672⟩ := by
      cases handle
      rw [TypeHandle.rename, TypeHandle.mk.injEq, TypeHandle.mk.injEq, slide_injective.eq_iff]
    simp only [settled, hsame, id_eq]
  methods _ := rfl
  strings _ := rfl

theorem settled_sites (kind : SectionKind) : (settledCode.sections.get kind).SitesKept slide := by
  have hnone : ∀ {part : CodeSection}, part.relocations = [] → part.SitesKept slide := by
    intro part hpart
    constructor <;> simp [hpart]
  cases kind with
  | consts => exact hnone rfl
  | stubs => exact hnone rfl
  | insts =>
    refine ⟨by decide, fun relocation hmem target hcall hvalue => ?_⟩
    simp only [settledCode, Sections.get, List.mem_cons, List.not_mem_nil, or_false] at hmem
    rcases hmem with rfl | rfl | rfl | rfl | rfl <;> cases hcall <;> cases hvalue <;> decide

theorem writeArtifact_rename_settled :
    ∃ layout after after' payload payload',
      writeArtifact ⟨settled id, false⟩ settledCode (.ofCapacity 512) = .ok layout after ∧
      writeArtifact ⟨settled slide, false⟩ (settledCode.rename slide) (.ofCapacity 1024) =
        .ok layout after' ∧
      after.bytes.slice? layout.offset layout.size = some payload ∧
      after'.bytes.slice? layout.offset layout.size = some payload' ∧
      ∀ i, ¬ layout.IsOrigin i → payload'[i]? = payload[i]? := by
  have hwritten : (match writeArtifact ⟨settled id, false⟩ settledCode (.ofCapacity 512) with
      | .ok _ _ => true
      | .error _ _ => false) = true := by
    decide +kernel
  cases hrun : writeArtifact ⟨settled id, false⟩ settledCode (.ofCapacity 512) with
  | error fault after =>
    rw [hrun] at hwritten
    cases hwritten
  | ok layout after =>
    have halike : Alike (.ofCapacity 512) (.ofCapacity 1024) := ⟨rfl, by decide, rfl⟩
    obtain ⟨after', payload, payload', hother, hslices⟩ :=
      writeArtifact_rename slide_injective settled_renamed settled_sites halike hrun
    exact ⟨layout, after, after', payload, payload', rfl, hother, hslices⟩

end Context

end CodeVault
