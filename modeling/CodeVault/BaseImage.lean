import CodeVault.Metadata

/-!
# The base image

A region shared by all processes, whose contents can be named by their distance from its start.

* `distance?` is the distance of an address inside the image, when it fits a 32-bit word;
* `pointer?` goes back; the sum must stay in the 64-bit range, and nothing else is asked of the
  distance.
-/

namespace CodeVault

/-- No image, or one of `size` bytes at `origin` with the strings that were archived in it. -/
inductive BaseImage where
  | absent
  | mapped (origin : Address) (size : Nat) (strings : List ObjectHandle)

namespace BaseImage

/-- Whether there is anything to point into. -/
def isMapped : BaseImage → Bool
  | absent => false
  | mapped _ size _ => 0 < size

/-- The start of the image. -/
def origin : BaseImage → Address
  | absent => 0
  | mapped origin _ _ => origin

/-- The length of the image. -/
def size : BaseImage → Nat
  | absent => 0
  | mapped _ size _ => size

/-- The strings archived in the image. -/
def strings : BaseImage → List ObjectHandle
  | absent => []
  | mapped _ _ strings => strings

/-- Whether an address lies in the image. -/
def contains (image : BaseImage) (a : Address) : Bool := (a.within? image.origin image.size).isSome

/-- How far an address is inside the image, if it is and the distance fits a word. -/
def distance? (image : BaseImage) (a : Address) : Option UInt32 :=
  match a.within? image.origin image.size with
  | some distance => if distance < wordSpace then some (UInt32.ofNat distance) else none
  | none => none

/-- The address at a distance from the start, if the sum is an address. -/
def pointer? (image : BaseImage) (distance : UInt32) : Option Address :=
  image.origin.after? distance.toNat

/-- The first place of a string among the archived ones, if it fits a word. -/
def stringIndex? (image : BaseImage) (string : ObjectHandle) : Option UInt32 :=
  match image.strings.findIdx? (· == string) with
  | some index => if index < wordSpace then some (UInt32.ofNat index) else none
  | none => none

/-- The archived string at an index. -/
def stringAt? (image : BaseImage) (index : UInt32) : Option ObjectHandle :=
  image.strings[index.toNat]?

/-- **What is named by its distance is found again by it.** -/
theorem pointer?_of_distance? {image : BaseImage} {a : Address} {distance : UInt32}
    (h : image.distance? a = some distance) : image.pointer? distance = some a := by
  unfold distance? at h
  split at h
  · rename_i d hd
    split at h
    · rename_i hlt
      simp only [Option.some.injEq] at h
      subst h
      have : (UInt32.ofNat d).toNat = d := UInt32.toNat_ofNat_of_lt' hlt
      rw [pointer?, this]
      exact Address.after?_of_within? hd
    · simp at h
  · simp at h

end BaseImage

end CodeVault
