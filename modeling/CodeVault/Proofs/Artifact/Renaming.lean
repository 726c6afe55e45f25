import CodeVault.Context
import CodeVault.Proofs.Relocation
import CodeVault.Proofs.Symbol.Renaming
import CodeVault.Artifact.Basic

/-!
# An artifact in a process whose addresses are others

Let an injective `ρ` lead from the addresses of one process to those of another
(`LiveProcess.Renamed`).

* `Artifact.rename ρ` is the artifact with other addresses: those that its sections start at, those
  that its relocations target, and those of its embedded values;
* **what stands for a value in the one process stands for the renamed value in the other**
  (`Context.encodeValue_rename`), and so for relocations (`Context.auxiliary_rename`).
-/

namespace CodeVault

open Function

variable {ρ : Address → Address}

/-! ## 1. Other addresses -/

/-- A type at another address. -/
def TypeHandle.rename (ρ : Address → Address) (handle : TypeHandle) : TypeHandle :=
  ⟨ρ handle.address⟩

/-- A method at another address. -/
def MethodHandle.rename (ρ : Address → Address) (handle : MethodHandle) : MethodHandle :=
  ⟨ρ handle.address⟩

/-- An object at another address. -/
def ObjectHandle.rename (ρ : Address → Address) (handle : ObjectHandle) : ObjectHandle :=
  ⟨ρ handle.address⟩

/-- The description of a method whose holder is at another address. -/
def MethodInfo.rename (ρ : Address → Address) (info : MethodInfo) : MethodInfo :=
  { info with holder := info.holder.rename ρ }

/-- A value at another address. -/
def EmbeddedValue.rename (ρ : Address → Address) : EmbeddedValue → EmbeddedValue
  | .type handle => .type (handle.rename ρ)
  | .method handle => .method (handle.rename ρ)
  | .string handle => .string (handle.rename ρ)
  | value => value

/-- What a place in the code gets, with other addresses. -/
def RelocationValue.rename (ρ : Address → Address) : RelocationValue → RelocationValue
  | .address target => .address (ρ target)
  | .immediate value => .immediate (value.rename ρ)
  | value => value

/-- A relocation with other addresses. -/
def Relocation.rename (ρ : Address → Address) (relocation : Relocation) : Relocation :=
  { relocation with value := relocation.value.rename ρ }

/-- A section that was generated elsewhere, with other addresses in its relocations. -/
def CodeSection.rename (ρ : Address → Address) (part : CodeSection) : CodeSection :=
  { part with origin := ρ part.origin, relocations := part.relocations.map (·.rename ρ) }

/-- The artifact with other addresses; its code is the same. -/
def Artifact.rename (ρ : Address → Address) (artifact : Artifact) : Artifact :=
  { artifact with
    sections := artifact.sections.map (·.rename ρ)
    references := artifact.references.map (·.rename ρ) }

/-- The image at another address, with its strings at other addresses. -/
def BaseImage.rename (ρ : Address → Address) : BaseImage → BaseImage
  | .absent => .absent
  | .mapped origin size strings => .mapped (ρ origin) size (strings.map (·.rename ρ))

theorem BaseImage.isMapped_rename (image : BaseImage) :
    (image.rename ρ).isMapped = image.isMapped := by
  cases image <;> rfl

/-- **A string has the index in the one image that its name has in the other.** -/
theorem BaseImage.stringIndex?_rename (hρ : Injective ρ) (image : BaseImage)
    (string : ObjectHandle) :
    (image.rename ρ).stringIndex? (string.rename ρ) = image.stringIndex? string := by
  have hrename : Injective (ObjectHandle.rename ρ) := by
    rintro ⟨a⟩ ⟨b⟩ h
    exact congrArg ObjectHandle.mk (hρ (congrArg ObjectHandle.address h))
  have hstrings : (image.rename ρ).strings = image.strings.map (·.rename ρ) := by
    cases image <;> rfl
  have hindex : ((image.strings.map (·.rename ρ)).findIdx? (· == string.rename ρ)) =
      image.strings.findIdx? (· == string) := by
    rw [List.findIdx?_map]
    exact congrArg (List.findIdx? · image.strings) (funext fun _ => hrename.beq_eq)
  rw [stringIndex?, hstrings, hindex]
  rfl

/-- An address that is as far from the start of the image, if it is inside, has the same distance
    there. -/
theorem BaseImage.distance?_rename {origin addr : Address} {size : Nat}
    {strings : List ObjectHandle}
    (h : (ρ addr).within? (ρ origin) size = addr.within? origin size) :
    ((mapped origin size strings).rename ρ).distance? (ρ addr) =
      (mapped origin size strings).distance? addr := by
  unfold distance?
  rw [show ((mapped origin size strings).rename ρ).origin = ρ origin from rfl,
    show ((mapped origin size strings).rename ρ).size = size from rfl, h]
  rfl

/-! ## 2. Processes -/

/-- The two processes made the same registrations and interned the same strings, and all that is
    known by its address in the one is known by the renamed address in the other.

    Distances from the anchor are kept; so are those inside the image, where the same addresses are
    inside; and the one resolver says of the renamed entities what the other says of the
    entities. -/
structure LiveProcess.Renamed (ρ : Address → Address) (p q : LiveProcess) : Prop where
  symbols : ∃ anchor placement events,
    p.symbols = (SymbolTable.empty anchor placement).after events ∧
    q.symbols = (SymbolTable.empty (anchor.rename ρ) fun serial => ρ (placement serial)).after
      (events.map (·.rename ρ))
  anchor : ∀ addr distance, p.symbols.anchor.distance? addr = some distance →
    q.symbols.anchor.distance? (ρ addr) = some distance
  image : q.image = p.image.rename ρ
  distance : ∀ addr, q.image.distance? (ρ addr) = p.image.distance? addr
  types : ∀ handle, q.resolver.describeType (handle.rename ρ) = p.resolver.describeType handle
  methods : ∀ handle, q.resolver.describeMethod (handle.rename ρ) =
    (p.resolver.describeMethod handle).map (·.rename ρ)
  strings : ∀ handle, q.resolver.describeString (handle.rename ρ) = p.resolver.describeString handle

/-- Whatever is done to the symbols of both processes, they are the same but for the addresses. -/
theorem LiveProcess.Renamed.symbols_eq {p q : LiveProcess} (hρ : Injective ρ) (h : p.Renamed ρ q) :
    q.symbols = p.symbols.rename ρ := by
  obtain ⟨anchor, placement, events, hp, hq⟩ := h.symbols
  rw [hp, hq, ← SymbolTable.after_rename hρ, SymbolTable.empty_rename]

namespace Context

variable {p q : LiveProcess} {forPreload : Bool}

/-! ## 3. Values and addresses -/

theorem describeType_rename (h : p.Renamed ρ q) (handle : TypeHandle) :
    describeType ⟨q, forPreload⟩ (handle.rename ρ) = describeType ⟨p, forPreload⟩ handle := by
  unfold describeType
  rw [h.types]
  rfl

theorem describeMethod_rename (h : p.Renamed ρ q) (handle : MethodHandle) :
    describeMethod ⟨q, forPreload⟩ (handle.rename ρ) = describeMethod ⟨p, forPreload⟩ handle := by
  unfold describeMethod
  rw [h.methods]
  cases p.resolver.describeMethod handle with
  | none => rfl
  | some info =>
    show (describeType ⟨q, forPreload⟩ (info.holder.rename ρ) >>= _) = _
    rw [describeType_rename h]
    rfl

theorem describeString_rename (h : p.Renamed ρ q) (handle : ObjectHandle) :
    describeString ⟨q, forPreload⟩ (handle.rename ρ) = describeString ⟨p, forPreload⟩ handle := by
  unfold describeString
  rw [h.strings]

/-- **The reference of a value in the one process is the reference of the renamed value in the
    other.** -/
theorem encodeValue_rename (hρ : Injective ρ) (h : p.Renamed ρ q) (value : EmbeddedValue) :
    encodeValue ⟨q, forPreload⟩ (value.rename ρ) = encodeValue ⟨p, forPreload⟩ value := by
  cases value with
  | null | noData | primitive | systemLoader | platformLoader => rfl
  | type handle =>
    simp only [EmbeddedValue.rename, encodeValue, describeType_rename h]
    rw [show (handle.rename ρ).address = ρ handle.address from rfl, h.distance]
  | method handle =>
    simp only [EmbeddedValue.rename, encodeValue, describeMethod_rename h]
    rw [show (handle.rename ρ).address = ρ handle.address from rfl, h.distance]
  | string handle =>
    simp only [EmbeddedValue.rename, encodeValue, describeString_rename h]
    rw [h.image, BaseImage.stringIndex?_rename hρ, BaseImage.isMapped_rename]

/-- The word of an address is the word of its name in the other process. -/
theorem symbolWord_rename (hρ : Injective ρ) (h : p.Renamed ρ q) {addr : Address} {word : UInt32}
    (hword : symbolWord ⟨p, forPreload⟩ addr = .ok word) :
    symbolWord ⟨q, forPreload⟩ (ρ addr) = .ok word := by
  obtain ⟨symbol, hsymbol, hraw⟩ := symbolWord_eq_ok.1 hword
  have hanchor := h.anchor addr
  rw [h.symbols_eq hρ] at hanchor
  have hother := SymbolTable.symbolOf_rename hρ hanchor hsymbol
  rw [← h.symbols_eq hρ] at hother
  exact symbolWord_eq_ok.2 ⟨symbol, hother, hraw⟩

end Context

/-! ## 4. Places in the code -/

/-- The places that the relocations of a section name are addresses in the other process too, and
    the target of a call is its own place there exactly when it is here. -/
structure CodeSection.SitesKept (ρ : Address → Address) (part : CodeSection) : Prop where
  inside : ∀ relocation ∈ part.relocations, ((ρ part.origin).after? relocation.offset.toNat).isSome
  own : ∀ relocation ∈ part.relocations, ∀ target, relocation.kind.isCall →
    relocation.value = .address target →
    ((ρ part.origin).after? relocation.offset.toNat = some (ρ target) ↔
      part.origin.after? relocation.offset.toNat = some target)

namespace Context

variable {p q : LiveProcess} {forPreload : Bool} {part : CodeSection} {relocation : Relocation}

theorem targetWord_rename (hρ : Injective ρ) (h : p.Renamed ρ q) (hsites : part.SitesKept ρ)
    (hmem : relocation ∈ part.relocations) {target : Address}
    (hvalue : relocation.value = .address target) {word : UInt32}
    (hword : targetWord ⟨p, forPreload⟩ part.origin relocation target = .ok word) :
    targetWord ⟨q, forPreload⟩ (ρ part.origin) (relocation.rename ρ) (ρ target) = .ok word := by
  rcases targetWord_eq_ok.1 hword with ⟨hcall, hsite, rfl⟩ | ⟨helse, hsymbol⟩
  · exact targetWord_eq_ok.2
      (.inl ⟨hcall, (hsites.own relocation hmem target hcall hvalue).2 hsite, rfl⟩)
  · refine targetWord_eq_ok.2 (.inr ⟨fun hcall => ?_, symbolWord_rename hρ h hsymbol⟩)
    obtain ⟨site, hsite, hne⟩ := helse hcall
    obtain ⟨other, hother⟩ := Option.isSome_iff_exists.1 (hsites.inside relocation hmem)
    refine ⟨other, hother, fun hself => hne ?_⟩
    have hown := (hsites.own relocation hmem target hcall hvalue).1 (hself ▸ hother)
    exact Option.some.inj (hown.symm.trans hsite)

/-- **What stands for a relocation in the one process stands for the renamed one in the other.** -/
theorem auxiliary_rename (hρ : Injective ρ) (h : p.Renamed ρ q) (hsites : part.SitesKept ρ)
    (hmem : relocation ∈ part.relocations) {referenceCount : Nat} {auxiliary : Auxiliary}
    (haux : Context.auxiliary ⟨p, forPreload⟩ part.origin referenceCount relocation =
      .ok auxiliary) :
    Context.auxiliary ⟨q, forPreload⟩ (ρ part.origin) referenceCount (relocation.rename ρ) =
      .ok auxiliary := by
  unfold Context.auxiliary at haux ⊢
  rw [show (relocation.rename ρ).kind = relocation.kind from rfl,
    show (relocation.rename ρ).value = relocation.value.rename ρ from rfl]
  split at haux
  · rename_i hoperand hvalue
    rw [hoperand, hvalue]
    exact haux
  · rename_i hoperand hvalue
    rw [hoperand, hvalue]
    exact haux
  · rename_i target hoperand hvalue
    rw [hoperand, hvalue]
    obtain ⟨word, hword, rfl⟩ := except_map_eq_ok.1 haux
    exact except_map_eq_ok.2 ⟨word, targetWord_rename hρ h hsites hmem hvalue hword, rfl⟩
  · rename_i value hoperand hvalue
    rw [hoperand, hvalue]
    show liftError CacheError.lookupFailed ((encodeValue ⟨q, forPreload⟩ (value.rename ρ)).map _) =
        _
    rw [encodeValue_rename hρ h]
    exact haux
  · rename_i offset hoperand hvalue
    rw [hoperand, hvalue]
    exact haux
  · rename_i index hoperand hvalue
    rw [hoperand, hvalue]
    split at haux
    · rename_i hlt
      exact (if_pos hlt).trans haux
    · cases haux
  · cases haux

end Context

end CodeVault
