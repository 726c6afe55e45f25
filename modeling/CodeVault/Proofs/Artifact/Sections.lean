import CodeVault.Proofs.Artifact.Tables
import CodeVault.Proofs.Relocation

/-!
# Sections of a payload

The three sections are written behind their descriptors, each at a boundary, and the place of each
is written into its descriptor afterwards.

* `Artifact.codeBytes` is all that stands up to the last section, with the places filled in; before
  a section is written its place is still missing (`Draft`), and filling one draft gives the next;
* `writeCode_ok`: writing produces the last; `spells_descriptors` and `reads_sections`: reading
  finds the descriptors and the sections in it.
-/

namespace CodeVault

open Arena Bytes Cursor Container

variable {ε α β σ : Type}

/-! ## 1. Things for each section -/

namespace Sections

/-- The thing for one section. -/
def get (s : Sections α) : SectionKind → α
  | .consts => s.consts
  | .insts => s.insts
  | .stubs => s.stubs

theorem mapM_ok {f : α → EStateM ε σ β} {s : Sections α} {t : Sections β} {before after : σ}
    (h : s.mapM f before = .ok t after) :
    ∃ first second, f s.consts before = .ok t.consts first ∧ f s.insts first = .ok t.insts second ∧
      f s.stubs second = .ok t.stubs after := by
  obtain ⟨consts, first, hconsts, h⟩ := bind_ok h
  obtain ⟨insts, second, hinsts, h⟩ := bind_ok h
  obtain ⟨stubs, third, hstubs, h⟩ := bind_ok h
  obtain ⟨rfl, rfl⟩ := pure_ok h
  exact ⟨first, second, hconsts, hinsts, hstubs⟩

theorem preserves_mapM {holds : σ → Prop} {f : α → EStateM ε σ β} {s : Sections α}
    (h : ∀ kind, Preserves holds (f (s.get kind))) : Preserves holds (s.mapM f) :=
  (h .consts).bind fun _ => (h .insts).bind fun _ => (h .stubs).bind fun _ => preserves_pure _

theorem reads_mapM {f : α → EStateM ε Cursor β} {s : Sections α} {t : Sections β} {data : Bytes}
    {p q r u : Nat} (hconsts : Reads (f s.consts) data p t.consts q)
    (hinsts : Reads (f s.insts) data q t.insts r) (hstubs : Reads (f s.stubs) data r t.stubs u) :
    Reads (s.mapM f) data p t u :=
  hconsts.bind (hinsts.bind (hstubs.bind (reads_pure t u)))

theorem mapM_lift {f : α → EStateM ε σ β} (s : Sections α) :
    s.mapM (fun a => (liftM (f a) : EStateM (Fault ε) σ β)) = liftM (s.mapM f) := by
  simp only [mapM, lift_bind, lift_pure]

/-- Parts for the three sections one behind the other. -/
def bytes (parts : Sections Bytes) : Bytes := parts.consts ++ (parts.insts ++ parts.stubs)

theorem spells_mapM {f : α → EStateM ε Cursor β} {s : Sections α} {t : Sections β}
    {parts : Sections Bytes} (h : ∀ kind, Spells (parts.get kind) (f (s.get kind)) (t.get kind)) :
    Spells parts.bytes (s.mapM f) t :=
  (h .consts).bind ((h .insts).bind (h .stubs).bind_pure)

end Sections

/-! ## 2. Descriptors -/

namespace SectionDescriptor

/-- The bytes of a descriptor up to the place of the section. -/
def headBytes (descriptor : SectionDescriptor) : Bytes :=
  ofU32 (UInt32.ofNat descriptor.kind.code) ++ (ofU32 descriptor.size ++ ofU64 descriptor.origin)

/-- The bytes of a descriptor. -/
def encode (descriptor : SectionDescriptor) : Bytes :=
  descriptor.headBytes ++ (ofU32 descriptor.offset ++ ofU32 0)

@[simp] theorem size_headBytes (descriptor : SectionDescriptor) :
    descriptor.headBytes.size = 16 := by
  simp [headBytes]

@[simp] theorem size_encode (descriptor : SectionDescriptor) :
    descriptor.encode.size = encodedSize := by
  simp [encode, encodedSize]

theorem ofCode?_word (kind : SectionKind) :
    SectionKind.ofCode? (UInt32.ofNat kind.code).toNat = some kind := by
  cases kind <;> rfl

/-- **A descriptor is read back, together with the word behind it that is not used.** -/
theorem spells_read (descriptor : SectionDescriptor) :
    Spells descriptor.encode (read descriptor.kind) descriptor := by
  intro data pos h
  have hend : pos + encodedSize ≤ data.size := by
    have := h.le
    rwa [size_encode] at this
  simp only [encode, headBytes, partAt_append, size_ofU32, size_ofU64, Array.size_append] at h
  obtain ⟨⟨hkind, hsize, horigin⟩, hoffset, -⟩ := h
  rw [size_encode]
  refine Reads.bind_get fun _ => (spells_readU32 _ hkind).bind ?_
  simp only [ofCode?_word, ne_eq, not_true, if_false]
  refine (spells_readU32 _ hsize).bind ((spells_readAddress _ horigin).bind ?_)
  refine (spells_readU32 _ hoffset).bind ((reads_seek hend).bind ?_)
  exact reads_pure _ _

end SectionDescriptor

/-- The descriptor of a section whose bytes stand at a place of the payload. -/
def CodeSection.descriptor (part : CodeSection) (offset : UInt32) : SectionDescriptor :=
  ⟨part.kind, UInt32.ofNat part.bytes.size, part.origin, offset⟩

theorem CodeSection.finish_descriptor {part : CodeSection} {place : Nat}
    (hplace : place < wordSpace) (hsize : part.bytes.size < wordSpace) :
    (part.descriptor (UInt32.ofNat place)).finish = place + part.bytes.size := by
  simp only [descriptor, SectionDescriptor.finish, toNat_ofNat_of_lt_wordSpace hplace,
    toNat_ofNat_of_lt_wordSpace hsize]

/-- The bytes of the descriptor of a section up to the place. -/
def CodeSection.headBytes (part : CodeSection) : Bytes := (part.descriptor 0).headBytes

@[simp] theorem CodeSection.size_headBytes (part : CodeSection) : part.headBytes.size = 16 :=
  SectionDescriptor.size_headBytes _

theorem CodeSection.encode_descriptor (part : CodeSection) (offset : UInt32) :
    (part.descriptor offset).encode = part.headBytes ++ (ofU32 offset ++ ofU32 0) := rfl

namespace Artifact

variable {arena after : Arena}

theorem writeDescriptor_ok {part : CodeSection} {expected : SectionKind} {place : Nat}
    (h : writeDescriptor (part, expected) arena = .ok place after) :
    part.kind = expected ∧ part.bytes.size < wordSpace ∧ place = arena.position + 16 ∧
      after = arena.extend (part.descriptor 0).encode := by
  obtain ⟨hkind, h⟩ := refusal_eq_ok.1 h
  obtain ⟨_, _, hcode, h⟩ := bind_ok h
  obtain rfl := (carries_writeWord _).appends hcode
  obtain ⟨size, _, hlink, h⟩ := bind_ok h
  obtain ⟨hsize, rfl⟩ := ofOutcome_eq_ok.1 hlink
  obtain ⟨hlt, rfl⟩ := length32_eq_ok.1 hsize
  obtain ⟨_, _, hword, h⟩ := bind_ok h
  obtain rfl := (carries_writeWord _).appends hword
  obtain ⟨_, _, horigin, h⟩ := bind_ok h
  obtain ⟨-, rfl⟩ := write_ok horigin
  obtain ⟨_, _, hplace, h⟩ := bind_ok h
  obtain ⟨hat, rfl⟩ := writeU32_ok hplace
  obtain ⟨_, _, hlast, h⟩ := bind_ok h
  obtain rfl := (carries_writeWord _).appends hlast
  obtain ⟨hanswer, rfl⟩ := pure_ok h
  refine ⟨Decidable.not_not.1 hkind, hlt, ?_, ?_⟩
  · rw [hanswer, hat]
    simp only [position_extend, size_ofU32, size_ofU64]
  · simp only [extend_extend, CodeSection.descriptor, SectionDescriptor.encode,
      SectionDescriptor.headBytes, Array.append_assoc]

theorem preserves_writeDescriptor {holds : Arena → Prop} {edge : Nat} (h : Outlasts holds edge)
    (slot : CodeSection × SectionKind) : Preserves holds (writeDescriptor slot) := by
  obtain ⟨part, expected⟩ := slot
  unfold writeDescriptor
  refine Preserves.unless (u := ()) ?_
  refine (preserves_writeWord h _).bind fun _ => (preserves_ofOutcome _).bind fun _ => ?_
  refine (preserves_writeWord h _).bind fun _ => (h.write _).bind fun _ => (h.write _).bind
    fun _ => ?_
  exact (preserves_writeWord h _).bind fun _ => preserves_pure _

/-! ## 3. Bytes of sections -/

/-- Bytes up to a section that is not written yet: the word for its place comes between `front` and
    `rest`. -/
structure Draft where
  front : Bytes
  rest : Bytes

namespace Draft

/-- The bytes as they are, without the place. -/
def bytes (draft : Draft) : Bytes := draft.front ++ (ofU32 0 ++ draft.rest)

/-- The bytes with the section at the next boundary and its place filled in. -/
def fill (draft : Draft) (part : Bytes) : Bytes :=
  draft.front ++ (ofU32 (UInt32.ofNat (alignUp draft.bytes.size)) ++
    (draft.rest ++ (zeros (paddingAfter draft.bytes.size) ++ part)))

end Draft

/-- **A section is written behind a draft, and its place into it.** -/
theorem writeSection_ok {base : Bytes} {draft : Draft} {part : CodeSection} {place : Nat} {u : Unit}
    (hbase : base.size % dataAlignment = 0) (hbytes : arena.bytes = base ++ draft.bytes)
    (hplace : place = base.size + draft.front.size)
    (h : writeSection base.size (part, place) arena = .ok u after) :
    alignUp draft.bytes.size < wordSpace ∧ after.bytes = base ++ draft.fill part.bytes := by
  obtain ⟨_, _, halign, h⟩ := bind_ok h
  have haligned := align_since hbase hbytes (lift_eq_ok.1 halign)
  obtain ⟨_, _, hget, h⟩ := bind_ok h
  cases hget
  obtain ⟨offset, aligned, hlink, h⟩ := bind_ok h
  obtain ⟨hoffset, rfl⟩ := ofOutcome_eq_ok.1 hlink
  obtain ⟨hlt, rfl⟩ := length32_eq_ok.1 (liftError_eq_ok.1 hoffset)
  obtain ⟨_, written, hwrite, hpatch⟩ := bind_ok h
  obtain ⟨-, rfl⟩ := write_ok (lift_eq_ok.1 hwrite)
  have hat : aligned.position - base.size = alignUp draft.bytes.size := by
    rw [haligned, position_extend, position, hbytes, alignUp_eq]
    simp only [Array.size_append, size_zeros]
    omega
  rw [hat] at hlt hpatch
  refine ⟨hlt, ?_⟩
  have hwritten : (aligned.extend part.bytes).bytes = (base ++ draft.front) ++ ofU32 0 ++
      (draft.rest ++ (zeros (paddingAfter draft.bytes.size) ++ part.bytes)) := by
    rw [haligned, extend_extend, bytes_extend, hbytes]
    generalize zeros (paddingAfter draft.bytes.size) = padding
    simp only [Draft.bytes, Array.append_assoc]
  rw [patchU32_ok hpatch, hwritten, hplace, ← Array.size_append, overwrite_between (by simp)]
  simp only [Draft.fill, Array.append_assoc]

theorem preserves_writeSection {holds : Arena → Prop} {edge start place : Nat}
    (h : Outlasts holds edge) (part : CodeSection) (hplace : edge ≤ place) :
    Preserves holds (writeSection start (part, place)) := by
  refine h.align.lift.bind fun _ => preserves_get.bind fun _ => ?_
  refine (preserves_ofOutcome _).bind fun _ => (h.write _).lift.bind fun _ => ?_
  exact h.patchU32 _ hplace

/-! ## 4. The payload up to the last section -/

/-- The name with its nul, up to the next boundary. -/
def nameBytes (artifact : Artifact) : Bytes := padded ((ofString artifact.name).push 0)

/-- The places of the sections in the payload. -/
def places (artifact : Artifact) : Sections Nat :=
  let consts := alignUp (artifact.nameBytes.size + 3 * SectionDescriptor.encodedSize)
  let insts := alignUp (consts + artifact.sections.consts.bytes.size)
  ⟨consts, insts, alignUp (insts + artifact.sections.insts.bytes.size)⟩

/-- The descriptors of the sections. -/
def descriptors (artifact : Artifact) : Sections SectionDescriptor :=
  ⟨artifact.sections.consts.descriptor (UInt32.ofNat artifact.places.consts),
   artifact.sections.insts.descriptor (UInt32.ofNat artifact.places.insts),
   artifact.sections.stubs.descriptor (UInt32.ofNat artifact.places.stubs)⟩

/-- The payload up to the descriptors. -/
def frontBytes (artifact : Artifact) : Bytes :=
  artifact.nameBytes ++ (artifact.descriptors.map SectionDescriptor.encode).bytes

/-- The payload up to the constants. -/
def constBytes (artifact : Artifact) : Bytes :=
  padded artifact.frontBytes ++ artifact.sections.consts.bytes

/-- The payload up to the instructions. -/
def instBytes (artifact : Artifact) : Bytes :=
  padded artifact.constBytes ++ artifact.sections.insts.bytes

/-- The payload up to the stubs, which are the last section. -/
def codeBytes (artifact : Artifact) : Bytes :=
  padded artifact.instBytes ++ artifact.sections.stubs.bytes

@[simp] theorem size_frontBytes (artifact : Artifact) :
    artifact.frontBytes.size = artifact.nameBytes.size + 3 * SectionDescriptor.encodedSize := by
  simp only [frontBytes, Sections.bytes, Sections.map, Array.size_append,
    SectionDescriptor.size_encode]
  omega

@[simp] theorem size_constBytes (artifact : Artifact) :
    artifact.constBytes.size = artifact.places.consts + artifact.sections.consts.bytes.size := by
  simp only [constBytes, Array.size_append, size_padded, size_frontBytes, places]

@[simp] theorem size_instBytes (artifact : Artifact) :
    artifact.instBytes.size = artifact.places.insts + artifact.sections.insts.bytes.size := by
  simp only [instBytes, Array.size_append, size_padded, size_constBytes]
  rfl

@[simp] theorem size_codeBytes (artifact : Artifact) :
    artifact.codeBytes.size = artifact.places.stubs + artifact.sections.stubs.bytes.size := by
  simp only [codeBytes, Array.size_append, size_padded, size_instBytes]
  rfl

theorem places_consts (artifact : Artifact) :
    artifact.places.consts = alignUp artifact.frontBytes.size := by
  rw [size_frontBytes]
  rfl

theorem places_insts (artifact : Artifact) :
    artifact.places.insts = alignUp artifact.constBytes.size := by
  rw [size_constBytes]
  rfl

theorem places_stubs (artifact : Artifact) :
    artifact.places.stubs = alignUp artifact.instBytes.size := by
  rw [size_instBytes]
  rfl

/-- All parts up to the last section, one behind the other. -/
theorem codeBytes_eq (artifact : Artifact) : artifact.codeBytes =
    artifact.nameBytes ++ (artifact.descriptors.consts.encode ++
      (artifact.descriptors.insts.encode ++
      (artifact.descriptors.stubs.encode ++ (zeros (paddingAfter artifact.frontBytes.size) ++
        (artifact.sections.consts.bytes ++ (zeros (paddingAfter artifact.constBytes.size) ++
          (artifact.sections.insts.bytes ++ (zeros (paddingAfter artifact.instBytes.size) ++
            artifact.sections.stubs.bytes)))))))) := by
  rw [codeBytes, padded]
  generalize zeros (paddingAfter artifact.instBytes.size) = third
  rw [instBytes, padded]
  generalize zeros (paddingAfter artifact.constBytes.size) = second
  rw [constBytes, padded]
  generalize zeros (paddingAfter artifact.frontBytes.size) = first
  simp only [frontBytes, Sections.bytes, Sections.map, Array.append_assoc]

/-- The sections are in their slots, and their sizes and places fit words. -/
structure SectionsFit (artifact : Artifact) : Prop where
  kind_eq : ∀ kind, (artifact.sections.get kind).kind = kind
  size_lt : ∀ kind, (artifact.sections.get kind).bytes.size < wordSpace
  place_lt : ∀ kind, artifact.places.get kind < wordSpace

/-- What the descriptors are before the places are known. -/
theorem writeDescriptors_ok {artifact : Artifact} {places : Sections Nat}
    (h : (artifact.sections.zip Sections.kinds).mapM
      (fun slot => (liftM (writeDescriptor slot) : Encoding Nat)) arena = .ok places after) :
    (∀ kind, (artifact.sections.get kind).kind = kind) ∧
      (∀ kind, (artifact.sections.get kind).bytes.size < wordSpace) ∧
      places = ⟨arena.position + 16, arena.position + 40, arena.position + 64⟩ ∧
      after = arena.extend (artifact.sections.map fun part =>
        (part.descriptor 0).encode).bytes := by
  obtain ⟨first, second, hconsts, hinsts, hstubs⟩ := Sections.mapM_ok h
  obtain ⟨hk1, hs1, hp1, rfl⟩ := writeDescriptor_ok (lift_eq_ok.1 hconsts)
  obtain ⟨hk2, hs2, hp2, rfl⟩ := writeDescriptor_ok (lift_eq_ok.1 hinsts)
  obtain ⟨hk3, hs3, hp3, rfl⟩ := writeDescriptor_ok (lift_eq_ok.1 hstubs)
  refine ⟨fun kind => ?_, fun kind => ?_, ?_, ?_⟩
  · cases kind <;> assumption
  · cases kind <;> assumption
  · obtain ⟨p1, p2, p3⟩ := places
    simp only [position_extend, SectionDescriptor.size_encode, SectionDescriptor.encodedSize]
      at hp1 hp2 hp3
    simp only [hp1, hp2, hp3]
  · simp only [extend_extend, Sections.bytes, Sections.map, Array.append_assoc]

/-- The places of the sections are in the descriptors, behind all that was written before. -/
theorem place_of_writeDescriptors {artifact : Artifact} {places : Sections Nat}
    (h : (artifact.sections.zip Sections.kinds).mapM
      (fun slot => (liftM (writeDescriptor slot) : Encoding Nat)) arena = .ok places after)
    (kind : SectionKind) :
    arena.position ≤ places.get kind ∧ places.get kind + 4 ≤ after.position := by
  obtain ⟨-, -, rfl, rfl⟩ := writeDescriptors_ok h
  rw [position_extend]
  simp only [Sections.bytes, Sections.map, Array.size_append, SectionDescriptor.size_encode,
    SectionDescriptor.encodedSize]
  cases kind <;> simp only [Sections.get] <;> omega

/-- The payload before each section is written: places are filled in up to there, and missing from
    there on. -/
def draft (artifact : Artifact) : SectionKind → Draft
  | .consts => ⟨artifact.nameBytes ++ artifact.sections.consts.headBytes,
      ofU32 0 ++ ((artifact.sections.insts.descriptor 0).encode ++
        (artifact.sections.stubs.descriptor 0).encode)⟩
  | .insts => ⟨artifact.nameBytes ++ (artifact.descriptors.consts.encode ++
        artifact.sections.insts.headBytes),
      ofU32 0 ++ ((artifact.sections.stubs.descriptor 0).encode ++
        (zeros (paddingAfter artifact.frontBytes.size) ++ artifact.sections.consts.bytes))⟩
  | .stubs => ⟨artifact.nameBytes ++ (artifact.descriptors.consts.encode ++
        (artifact.descriptors.insts.encode ++ artifact.sections.stubs.headBytes)),
      ofU32 0 ++ (zeros (paddingAfter artifact.frontBytes.size) ++
        (artifact.sections.consts.bytes ++
        (zeros (paddingAfter artifact.constBytes.size) ++ artifact.sections.insts.bytes)))⟩

@[simp] theorem size_front_draft (artifact : Artifact) (kind : SectionKind) :
    (artifact.draft kind).front.size = artifact.nameBytes.size + 16
      + SectionDescriptor.encodedSize * kind.code := by
  cases kind <;>
    simp only [draft, Array.size_append, CodeSection.size_headBytes, SectionDescriptor.size_encode,
      SectionDescriptor.encodedSize, SectionKind.code, Nat.add_assoc]

theorem size_draft_consts (artifact : Artifact) :
    (artifact.draft .consts).bytes.size = artifact.frontBytes.size := by
  rw [Draft.bytes, Array.size_append, size_front_draft, size_frontBytes]
  simp only [draft, Array.size_append, SectionDescriptor.size_encode, size_ofU32,
    SectionDescriptor.encodedSize, SectionKind.code, Nat.add_assoc]

theorem size_draft_insts (artifact : Artifact) :
    (artifact.draft .insts).bytes.size = artifact.constBytes.size := by
  rw [Draft.bytes, Array.size_append, size_front_draft, constBytes, padded]
  simp only [draft, Array.size_append, size_frontBytes, SectionDescriptor.size_encode, size_ofU32,
    SectionDescriptor.encodedSize, SectionKind.code]
  omega

theorem size_draft_stubs (artifact : Artifact) :
    (artifact.draft .stubs).bytes.size = artifact.instBytes.size := by
  have hconst : artifact.constBytes.size = artifact.frontBytes.size +
      (zeros (paddingAfter artifact.frontBytes.size)).size +
      artifact.sections.consts.bytes.size := by
    rw [constBytes, padded, Array.size_append, Array.size_append]
  rw [size_frontBytes] at hconst
  rw [Draft.bytes, Array.size_append, size_front_draft, instBytes, padded]
  simp only [draft, Array.size_append, size_frontBytes, size_ofU32, SectionDescriptor.encodedSize,
    SectionKind.code] at hconst ⊢
  omega

/-- Each section is written where its descriptor says. -/
theorem place_draft (artifact : Artifact) (kind : SectionKind) :
    alignUp (artifact.draft kind).bytes.size = artifact.places.get kind := by
  cases kind with
  | consts => exact (congrArg alignUp artifact.size_draft_consts).trans artifact.places_consts.symm
  | insts => exact (congrArg alignUp artifact.size_draft_insts).trans artifact.places_insts.symm
  | stubs => exact (congrArg alignUp artifact.size_draft_stubs).trans artifact.places_stubs.symm

/-- Before the first section, all that is written is the name and the descriptors. -/
theorem bytes_draft_consts (artifact : Artifact) : (artifact.draft .consts).bytes =
    artifact.nameBytes ++ (artifact.sections.map fun part => (part.descriptor 0).encode).bytes := by
  simp only [Draft.bytes, draft, Sections.bytes, Sections.map, CodeSection.encode_descriptor,
    Array.append_assoc]

theorem fill_draft_consts (artifact : Artifact) :
    (artifact.draft .consts).fill artifact.sections.consts.bytes =
      (artifact.draft .insts).bytes := by
  rw [Draft.fill, place_draft, size_draft_consts, Draft.bytes]
  simp only [draft, descriptors, Sections.get, CodeSection.encode_descriptor, Array.append_assoc]

theorem fill_draft_insts (artifact : Artifact) :
    (artifact.draft .insts).fill artifact.sections.insts.bytes = (artifact.draft .stubs).bytes := by
  rw [Draft.fill, place_draft, size_draft_insts, Draft.bytes]
  simp only [draft, descriptors, Sections.get, CodeSection.encode_descriptor, Array.append_assoc]

theorem fill_draft_stubs (artifact : Artifact) :
    (artifact.draft .stubs).fill artifact.sections.stubs.bytes = artifact.codeBytes := by
  have hstub : artifact.descriptors.stubs.encode = artifact.sections.stubs.headBytes ++
      (ofU32 (UInt32.ofNat artifact.places.stubs) ++ ofU32 0) := rfl
  rw [Draft.fill, place_draft, size_draft_stubs, codeBytes_eq, hstub]
  simp only [draft, Sections.get, Array.append_assoc]

/-- **Descriptors and sections are written behind the name as they are read, the places filled
    in.** -/
theorem writeCode_ok {artifact : Artifact} {base : Bytes} {places : Sections Nat}
    {u : Sections Unit} {middle : Arena} (hbase : base.size % dataAlignment = 0)
    (hbytes : arena.bytes = base ++ artifact.nameBytes)
    (hdescriptors : (artifact.sections.zip Sections.kinds).mapM
      (fun slot => (liftM (writeDescriptor slot) : Encoding Nat)) arena = .ok places middle)
    (hsections : (artifact.sections.zip places).mapM (writeSection base.size) middle =
      .ok u after) :
    artifact.SectionsFit ∧ after.bytes = base ++ artifact.codeBytes := by
  obtain ⟨hkind, hsize, rfl, rfl⟩ := writeDescriptors_ok hdescriptors
  obtain ⟨first, second, hconsts, hinsts, hstubs⟩ := Sections.mapM_ok hsections
  have hposition : arena.position = base.size + artifact.nameBytes.size := by
    rw [position, hbytes, Array.size_append]
  have hat (kind : SectionKind) : Sections.get ⟨arena.position + 16, arena.position + 40,
      arena.position + 64⟩ kind = base.size + (artifact.draft kind).front.size := by
    rw [hposition, size_front_draft]
    cases kind <;> simp only [Sections.get, SectionDescriptor.encodedSize, SectionKind.code,
      Nat.add_assoc]
  have hmiddle :
      (arena.extend (artifact.sections.map fun part => (part.descriptor 0).encode).bytes).bytes
      = base ++ (artifact.draft .consts).bytes := by
    rw [bytes_extend, hbytes, bytes_draft_consts, Array.append_assoc]
  -- Each section finds the draft that the one before it has left.
  obtain ⟨hplace1, hfirst⟩ := writeSection_ok hbase hmiddle (hat .consts) hconsts
  rw [fill_draft_consts] at hfirst
  obtain ⟨hplace2, hsecond⟩ := writeSection_ok hbase hfirst (hat .insts) hinsts
  rw [fill_draft_insts] at hsecond
  obtain ⟨hplace3, hlast⟩ := writeSection_ok hbase hsecond (hat .stubs) hstubs
  rw [fill_draft_stubs] at hlast
  refine ⟨⟨hkind, hsize, fun kind => ?_⟩, hlast⟩
  rw [← place_draft]
  cases kind with
  | consts => exact hplace1
  | insts => exact hplace2
  | stubs => exact hplace3

/-! ## 5. Reading sections -/

variable {data : Bytes} {entry : Entry}

/-- A section as it is read before its relocations are. -/
def bare (part : CodeSection) : CodeSection := { part with locsPoint := 0, relocations := [] }

/-- **A section is found behind what stands before it, at the boundary that its descriptor
    says.** -/
theorem reads_section {before : Bytes} {part : CodeSection}
    (hpart : PartAt data 0 (padded before ++ part.bytes)) (hsize : part.bytes.size < wordSpace)
    (hplace : alignUp before.size < wordSpace) :
    Reads (readSection entry (part.descriptor (UInt32.ofNat (alignUp before.size)))) data
      before.size
      (bare part) (padded before ++ part.bytes).size := by
  obtain ⟨hbefore, hbytes⟩ := partAt_append.1 hpart
  rw [Nat.zero_add] at hbytes
  have hle := hpart.le
  simp only [Array.size_append, size_padded] at hle hbytes ⊢
  refine (reads_align (by omega)).bind (Reads.bind_get fun _ => ?_)
  simp only [CodeSection.descriptor, toNat_ofNat_of_lt_wordSpace hplace,
    toNat_ofNat_of_lt_wordSpace hsize, ne_eq, not_true, if_false]
  exact (spells_readBytes part.bytes hbytes).bind (reads_pure _ _)

/-- Where the last section stands, all that is before it stands too. -/
theorem partAt_codeBytes {artifact : Artifact} (h : PartAt data 0 artifact.codeBytes) :
    PartAt data 0 artifact.frontBytes ∧ PartAt data 0 artifact.constBytes ∧
      PartAt data 0 artifact.instBytes := by
  have hinsts : PartAt data 0 artifact.instBytes := (partAt_append.1 (partAt_append.1 h).1).1
  have hconsts : PartAt data 0 artifact.constBytes := (partAt_append.1 (partAt_append.1 hinsts).1).1
  exact ⟨(partAt_append.1 (partAt_append.1 hconsts).1).1, hconsts, hinsts⟩

/-- **The sections are read back from behind their descriptors.** -/
theorem reads_sections {artifact : Artifact} (hfit : artifact.SectionsFit)
    (hpart : PartAt data 0 artifact.codeBytes) :
    Reads (artifact.descriptors.mapM (readSection entry)) data artifact.frontBytes.size
      (artifact.sections.map bare) artifact.codeBytes.size := by
  obtain ⟨-, hconsts, hinsts⟩ := partAt_codeBytes hpart
  have h1 : artifact.places.consts < wordSpace := hfit.place_lt .consts
  have h2 : artifact.places.insts < wordSpace := hfit.place_lt .insts
  have h3 : artifact.places.stubs < wordSpace := hfit.place_lt .stubs
  simp only [descriptors, Sections.map]
  rw [places_consts] at h1 ⊢
  rw [places_insts] at h2 ⊢
  rw [places_stubs] at h3 ⊢
  exact Sections.reads_mapM (reads_section hconsts (hfit.size_lt .consts) h1)
    (reads_section hinsts (hfit.size_lt .insts) h2) (reads_section hpart (hfit.size_lt .stubs) h3)

/-- The descriptors are read one after the other. -/
theorem spells_descriptors {artifact : Artifact} (hfit : artifact.SectionsFit) :
    Spells (artifact.descriptors.map SectionDescriptor.encode).bytes
      (Sections.kinds.mapM SectionDescriptor.read) artifact.descriptors := by
  have hread : ∀ kind, artifact.descriptors.get kind = (artifact.sections.get kind).descriptor
      (UInt32.ofNat (artifact.places.get kind)) := fun kind => by cases kind <;> rfl
  refine Sections.spells_mapM fun kind => ?_
  have hspells := SectionDescriptor.spells_read (artifact.descriptors.get kind)
  have hkind : (artifact.descriptors.get kind).kind = kind := by
    rw [hread]
    exact hfit.kind_eq kind
  rw [hkind] at hspells
  cases kind <;> exact hspells

/-- **The descriptors are read back from behind the name**, and what they say of the sections is
    so. -/
theorem peekSections_ok {artifact : Artifact} {payload : Bytes} (hfit : artifact.SectionsFit)
    (hpart : PartAt payload 0 artifact.codeBytes)
    (hcode : entry.codeOffset.toNat = artifact.nameBytes.size)
    (hsize : entry.codeSize.toNat = artifact.codeSize) :
    Payload.peekSections payload entry = .ok artifact.descriptors := by
  obtain ⟨hfront, hconsts, hinsts⟩ := partAt_codeBytes hpart
  have hdescriptors := (partAt_append.1 hfront).2
  rw [Nat.zero_add] at hdescriptors
  have hrun : Cursor.runAt payload entry.codeOffset.toNat
      (Sections.kinds.mapM SectionDescriptor.read) = .ok artifact.descriptors := by
    rw [hcode]
    have hle := hdescriptors.le
    exact runAt_of_reads (by omega) (spells_descriptors hfit hdescriptors)
  have hends : ∀ kind, Payload.checkSection payload entry (artifact.descriptors.get kind) =
      .ok () := by
    intro kind
    have hfinish := CodeSection.finish_descriptor (hfit.place_lt kind) (hfit.size_lt kind)
    have hle1 := hconsts.le
    have hle2 := hinsts.le
    have hle3 := hpart.le
    rw [size_constBytes] at hle1
    rw [size_instBytes] at hle2
    rw [size_codeBytes] at hle3
    refine if_neg ?_
    cases kind <;> simp only [Sections.get, descriptors] at hfinish ⊢ <;> omega
  have htotal : artifact.descriptors.consts.size.toNat + artifact.descriptors.insts.size.toNat +
      artifact.descriptors.stubs.size.toNat = entry.codeSize.toNat := by
    have h1 := toNat_ofNat_of_lt_wordSpace (hfit.size_lt .consts)
    have h2 := toNat_ofNat_of_lt_wordSpace (hfit.size_lt .insts)
    have h3 := toNat_ofNat_of_lt_wordSpace (hfit.size_lt .stubs)
    simp only [Sections.get] at h1 h2 h3
    simp only [hsize, descriptors, CodeSection.descriptor, codeSize, h1, h2, h3]
  have hchecks : artifact.descriptors.mapM (Payload.checkSection payload entry) =
      .ok ⟨(), (), ()⟩ :=
    except_bind_eq_ok.2 ⟨(), hends .consts, except_bind_eq_ok.2 ⟨(), hends .insts,
      except_bind_eq_ok.2 ⟨(), hends .stubs, rfl⟩⟩⟩
  refine except_bind_eq_ok.2 ⟨_, hrun, except_bind_eq_ok.2 ⟨_, hchecks, ?_⟩⟩
  simp only [htotal, ne_eq, not_true, if_false]
  rfl

end Artifact

end CodeVault
