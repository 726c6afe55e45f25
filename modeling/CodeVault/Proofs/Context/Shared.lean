import CodeVault.Proofs.Context.Naming
import CodeVault.Proofs.Cursor.Safe

/-!
# Distances into the base image

Types and methods of the base image are named by their distance from its start. A distance may come
from a process with a larger image.

* which addresses an image contains, which of them it numbers by a distance that fits a word
  (`BaseImage.Numbers`), and where a distance leads (`contains_iff_of_distance`);
* `Resident`: what is named by a distance. **A distance is answered as far as addresses go, and what
  is answered lies in the image, and has this distance again, exactly if the distance is smaller
  than the image** (`shared_inside_iff`);
* a reference stops the process only if it leads out of the 64-bit range (`isError_of_inRange`).
-/

namespace CodeVault

/-! ## 1. What an image contains -/

namespace BaseImage

variable {image : BaseImage} {a : Address} {distance : UInt32}

theorem contains_iff :
    image.contains a = true ↔
      image.origin.toNat ≤ a.toNat ∧ a.toNat < image.origin.toNat + image.size := by
  rw [contains, Option.isSome_iff_exists]
  constructor
  · rintro ⟨found, hfound⟩
    have := Address.within?_eq_some.1 hfound
    omega
  · exact fun _ => ⟨a.toNat - image.origin.toNat, Address.within?_eq_some.2 (by omega)⟩

/-- **What is at a distance from the start is in the image exactly if the distance is smaller than
    the image.** -/
theorem contains_iff_of_distance (h : a.toNat = image.origin.toNat + distance.toNat) :
    image.contains a = true ↔ distance.toNat < image.size := by
  rw [contains_iff]
  omega

theorem isMapped_of_contains (h : image.contains a = true) : image.isMapped = true := by
  cases image with
  | absent =>
    have := contains_iff.1 h
    simp only [origin, size] at this
    omega
  | mapped start size strings =>
    have := contains_iff.1 h
    simp only [origin, BaseImage.size] at this
    simp only [isMapped, decide_eq_true_eq]
    omega

/-- The image contains the address, at a distance that fits a word. -/
structure Numbers (image : BaseImage) (a : Address) : Prop where
  contains : image.contains a = true
  near : a.toNat < image.origin.toNat + wordSpace

/-- A number that fits a word, as this word. -/
theorem word_eq_some {n : Nat} {word : UInt32} :
    (if n < wordSpace then some (UInt32.ofNat n) else none) = some word ↔ n = word.toNat := by
  have hfits : word.toNat < wordSpace := word.toNat_lt
  constructor
  · intro h
    split at h
    · rename_i hlt
      rw [← Option.some.inj h, UInt32.toNat_ofNat_of_lt' hlt]
    · cases h
  · rintro rfl
    rw [if_pos hfits, UInt32.ofNat_toNat]

theorem distance?_eq_some :
    image.distance? a = some distance ↔
      image.contains a = true ∧ a.toNat = image.origin.toNat + distance.toNat := by
  unfold distance?
  cases hwithin : a.within? image.origin image.size with
  | none => simp [contains, hwithin]
  | some found =>
    have hplace := (Address.within?_eq_some.1 hwithin).1
    simp only [contains, hwithin, Option.isSome_some, true_and]
    rw [word_eq_some]
    omega

/-- **What is numbered has a distance**, and nothing else has. -/
theorem numbers_iff : image.Numbers a ↔ ∃ distance, image.distance? a = some distance := by
  constructor
  · rintro ⟨hcontains, hnear⟩
    have hbounds := contains_iff.1 hcontains
    have hlt : a.toNat - image.origin.toNat < wordSpace := by omega
    refine ⟨UInt32.ofNat (a.toNat - image.origin.toNat), distance?_eq_some.2 ⟨hcontains, ?_⟩⟩
    rw [UInt32.toNat_ofNat_of_lt' hlt]
    omega
  · rintro ⟨distance, h⟩
    obtain ⟨hcontains, hplace⟩ := distance?_eq_some.1 h
    have hfits : distance.toNat < wordSpace := distance.toNat_lt
    exact ⟨hcontains, by omega⟩

theorem distance?_eq_none : image.distance? a = none ↔ ¬image.Numbers a := by
  rw [numbers_iff, ← Option.isSome_iff_exists, Option.not_isSome_iff_eq_none]

end BaseImage

/-! ## 2. What is named by a distance -/

/-- The entities of a base image that are named by their distance. -/
inductive Resident where
  | type
  | method
  deriving DecidableEq, Repr

namespace Resident

/-- The reference to the entity at a distance. -/
def reference : Resident → UInt32 → Reference
  | type => .sharedType
  | method => .sharedMethod

/-- The entity at an address. -/
def value (resident : Resident) (a : Address) : EmbeddedValue :=
  match resident with
  | type => .type ⟨a⟩
  | method => .method ⟨a⟩

theorem value_injective {resident : Resident} {a b : Address}
    (h : resident.value a = resident.value b) : a = b := by
  cases resident <;> cases h <;> rfl

end Resident

namespace Context

variable {context : Context} {resident : Resident} {distance : UInt32} {a : Address}

theorem sharedAddress_eq_ok :
    context.sharedAddress distance = .ok a ↔
      context.process.image.isMapped = true ∧
        a.toNat = context.process.image.origin.toNat + distance.toNat := by
  unfold sharedAddress
  cases context.process.image.isMapped with
  | false => simp
  | true =>
    simp only [if_true, true_and]
    rw [orOverflow_eq_ok, BaseImage.pointer?, Address.after?_eq_some]

theorem sharedAddress_eq_error {fault : Fault LookupFailure} :
    context.sharedAddress distance = .error fault ↔
      context.process.image.isMapped = false ∧ fault = .error .baseImageUnavailable ∨
      context.process.image.isMapped = true ∧
        addressSpace ≤ context.process.image.origin.toNat + distance.toNat ∧
          fault = .halt .overflow := by
  unfold sharedAddress
  cases context.process.image.isMapped with
  | false => simp [eq_comm]
  | true =>
    rw [← Address.after?_eq_none, ← BaseImage.pointer?]
    cases context.process.image.pointer? distance with
    | some _ => simp [orOverflow]
    | none => simp [orOverflow, eq_comm]

theorem decodeValue_shared :
    context.decodeValue (resident.reference distance) =
      (context.sharedAddress distance).map resident.value := by
  cases resident <;> rfl

/-- **An entity is written as a distance exactly if this is its distance in the image.** -/
theorem encodeValue_eq_shared :
    context.encodeValue (resident.value a) = .ok (resident.reference distance) ↔
      context.process.image.distance? a = some distance := by
  cases resident with
  | type =>
    simp only [Resident.value, Resident.reference, encodeValue]
    cases context.process.image.distance? a with
    | some found => simp
    | none =>
      simp only [reduceCtorEq, iff_false]
      intro h
      obtain ⟨_, -, hsame⟩ := except_map_eq_ok.1 h
      cases hsame
  | method =>
    simp only [Resident.value, Resident.reference, encodeValue]
    cases context.process.image.distance? a with
    | some found => simp
    | none =>
      simp only [reduceCtorEq, iff_false]
      intro h
      obtain ⟨_, _, -, -, hsame⟩ := describeMethod_eq_ok.1 h
      cases hsame

/-- **A reference is refused with an error, unless it leads out of the 64-bit range.** -/
theorem isError_of_inRange {reference : Reference} {fault : Fault LookupFailure}
    (hroom : ∀ resident distance, reference = Resident.reference resident distance →
      context.process.image.isMapped = true →
      context.process.image.origin.toNat + distance.toNat < addressSpace)
    (h : context.decodeValue reference = .error fault) : fault.IsError := by
  have hshared : ∀ resident distance, reference = Resident.reference resident distance →
      fault.IsError := by
    rintro resident distance rfl
    rw [decodeValue_shared] at h
    refine isError_of_map (fun cause hcause => ?_) h
    rcases sharedAddress_eq_error.1 hcause with ⟨-, rfl⟩ | ⟨hmapped, hout, -⟩
    · exact ⟨_, rfl⟩
    · exact absurd hout (Nat.not_le.2 (hroom resident distance rfl hmapped))
  cases reference with
  | null | noData | primitive | systemLoader | platformLoader => cases h
  | sharedType distance => exact hshared .type distance rfl
  | sharedMethod distance => exact hshared .method distance rfl
  | sharedString | type | method | string => exact isError_of_liftError h

/-- **What a distance leads to lies in the image, and is written as this distance again, exactly if
    the distance is smaller than the image.** Where an image is mapped, every distance is answered
    by the address that is so far behind its start, whether the image goes as far or not, as long as
    there is such an address; otherwise the process stops. The only error is that no image is
    mapped. -/
theorem shared_inside_iff (context : Context) (resident : Resident) (distance : UInt32) :
    (∀ value, context.decodeValue (resident.reference distance) = .ok value ↔
      context.process.image.isMapped = true ∧
        ∃ a, value = resident.value a ∧
          a.toNat = context.process.image.origin.toNat + distance.toNat) ∧
    (∀ a, context.decodeValue (resident.reference distance) = .ok (resident.value a) →
      (context.process.image.contains a = true ↔ distance.toNat < context.process.image.size) ∧
      (context.encodeValue (resident.value a) = .ok (resident.reference distance) ↔
        distance.toNat < context.process.image.size)) ∧
    ∀ fault, context.decodeValue (resident.reference distance) = .error fault ↔
      context.process.image.isMapped = false ∧ fault = .error .baseImageUnavailable ∨
      context.process.image.isMapped = true ∧
        addressSpace ≤ context.process.image.origin.toNat + distance.toNat ∧
          fault = .halt .overflow := by
  have hleads : ∀ value, context.decodeValue (resident.reference distance) = .ok value ↔
      context.process.image.isMapped = true ∧
        ∃ a, value = resident.value a ∧
        a.toNat = context.process.image.origin.toNat + distance.toNat := by
    intro value
    rw [decodeValue_shared, except_map_eq_ok]
    constructor
    · rintro ⟨a, haddr, rfl⟩
      obtain ⟨hmapped, hplace⟩ := sharedAddress_eq_ok.1 haddr
      exact ⟨hmapped, a, rfl, hplace⟩
    · rintro ⟨hmapped, a, rfl, hplace⟩
      exact ⟨a, sharedAddress_eq_ok.2 ⟨hmapped, hplace⟩, rfl⟩
  refine ⟨hleads, fun a h => ?_, fun fault => ?_⟩
  · obtain ⟨-, b, hsame, hplace⟩ := (hleads _).1 h
    rw [← Resident.value_injective hsame] at hplace
    have hinside := BaseImage.contains_iff_of_distance hplace
    refine ⟨hinside, ?_⟩
    rw [encodeValue_eq_shared, BaseImage.distance?_eq_some, hinside]
    exact and_iff_left hplace
  · rw [decodeValue_shared, except_map_eq_error]
    exact sharedAddress_eq_error

/-! An example: the first distance behind an image of one page. -/

/-- A context that knows nothing but its image. -/
def imageOnly (image : BaseImage) : Context where
  process :=
    { symbols := SymbolTable.empty ⟨4096, 256⟩ fun serial => UInt64.ofNat (36864 + 16 * serial)
      image := image
      resolver :=
        { describeType := fun _ => none
          describeMethod := fun _ => none
          describeString := fun _ => none
          findType := fun _ _ => none
          findMethod := fun _ _ _ => none
          internString := fun _ => none } }
  forPreload := false

theorem shared_inside_iff_behind :
    let low := imageOnly (.mapped 2147483648 4096 [])
    let top := imageOnly (.mapped 18446744073709547520 4096 [])
    low.decodeValue (.sharedType 4096) = .ok (.type ⟨2147487744⟩) ∧
    low.process.image.contains 2147487744 = false ∧
    low.encodeValue (.type ⟨2147487744⟩) ≠ .ok (.sharedType 4096) ∧
    low.encodeValue (.type ⟨2147487743⟩) = .ok (.sharedType 4095) ∧
    top.decodeValue (.sharedMethod 4096) = .error (.halt .overflow) := by
  intro low top
  obtain ⟨hleads, hinside, -⟩ := shared_inside_iff low .type 4096
  obtain ⟨hlast, hlastInside, -⟩ := shared_inside_iff low .type 4095
  obtain ⟨-, -, hrefused⟩ := shared_inside_iff top .method 4096
  have hbehind : low.decodeValue (.sharedType 4096) = .ok (.type ⟨2147487744⟩) :=
    (hleads _).2 ⟨by decide, 2147487744, rfl, by decide⟩
  have hwithin : low.decodeValue (.sharedType 4095) = .ok (.type ⟨2147487743⟩) :=
    (hlast _).2 ⟨by decide, 2147487743, rfl, by decide⟩
  refine ⟨hbehind, ?_, fun hsame => ?_, (hlastInside _ hwithin).2.2 (by decide),
    (hrefused _).2 (.inr ⟨by decide, by decide, rfl⟩)⟩
  · exact Bool.eq_false_iff.2 fun hcontains => absurd ((hinside _ hbehind).1.1 hcontains)
      (by decide)
  · exact absurd ((hinside _ hbehind).2.1 hsame) (by decide)

end Context

end CodeVault
