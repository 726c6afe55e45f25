import CodeVault.Address

/-!
# Buckets, phases and the ranges of ids

Every id a program may carry in place of an address lies in one range.

* five buckets hold the registered addresses of routines, stubs and blobs, each in its own range of
  ids from `Bucket.base` on, `Bucket.max` of them at most;
* interned strings follow (`stringBase`), and everything from `anchorBase` on is a distance from the
  anchor of the process image;
* the greatest 32-bit word stays free for other uses (`maxAnchorDistance`).
-/

namespace CodeVault

/-- The disjoint groups of registered addresses. -/
inductive Bucket where
  | external
  | stub
  | sharedBlob
  | tier1Blob
  | tier2Blob
  deriving DecidableEq, Repr

namespace Bucket

/-- Every bucket, by increasing ids. -/
def all : List Bucket := [.external, .stub, .sharedBlob, .tier1Blob, .tier2Blob]

/-- The order of look-ups: stubs first, then blobs by tier, general routines last. -/
def searchOrder : List Bucket := [.stub, .sharedBlob, .tier1Blob, .tier2Blob, .external]

/-- The number of addresses a bucket may hold. -/
def max : Bucket → Nat
  | external => 512
  | stub => 256
  | sharedBlob => 64
  | tier1Blob => 128
  | tier2Blob => 128

/-- The first id of a bucket. -/
def base : Bucket → Nat
  | external => 0
  | stub => 512
  | sharedBlob => 768
  | tier1Blob => 832
  | tier2Blob => 960

/-- The bucket whose range holds `id`. -/
def forId? (id : Nat) : Option Bucket :=
  all.find? fun bucket => bucket.base ≤ id && id < bucket.base + bucket.max

/-- The name of a bucket in messages. -/
def name : Bucket → String
  | external => "External"
  | stub => "Stub"
  | sharedBlob => "SharedBlob"
  | tier1Blob => "Tier1Blob"
  | tier2Blob => "Tier2Blob"

theorem mem_all (bucket : Bucket) : bucket ∈ all := by
  cases bucket <;> simp [all]

theorem mem_searchOrder (bucket : Bucket) : bucket ∈ searchOrder := by
  cases bucket <;> simp [searchOrder]

/-- The ranges of two buckets have no id in common. -/
theorem eq_of_ranges {b c : Bucket} {id : Nat} (hb : b.base ≤ id) (hb' : id < b.base + b.max)
    (hc : c.base ≤ id) (hc' : id < c.base + c.max) : b = c := by
  cases b <;> cases c <;> simp only [base, max] at * <;> first | rfl | (exfalso; omega)

/-- **A position of a bucket has an id of that bucket and of no other.** -/
theorem forId?_base_add {bucket : Bucket} {position : Nat} (h : position < bucket.max) :
    forId? (bucket.base + position) = some bucket := by
  unfold forId?
  cases hf : all.find? _ with
  | none =>
    have hnone := List.find?_eq_none.1 hf bucket (mem_all bucket)
    simp only [Bool.and_eq_true, decide_eq_true_eq] at hnone
    omega
  | some found =>
    have hp := List.find?_some hf
    simp only [Bool.and_eq_true, decide_eq_true_eq] at hp
    rw [eq_of_ranges hp.1 hp.2 (Nat.le_add_right _ _) (by omega)]

theorem forId?_eq_some {id : Nat} {bucket : Bucket} (h : forId? id = some bucket) :
    bucket.base ≤ id ∧ id < bucket.base + bucket.max := by
  have hb := List.find?_some h
  simpa using hb

end Bucket

/-- The first id of the interned strings. -/
def stringBase : Nat := 1088

/-- The number of strings that may be interned. -/
def maxStrings : Nat := 1024

/-- The first id that stands for a distance from the anchor. -/
def anchorBase : Nat := stringBase + maxStrings

/-- The greatest distance from the anchor that has an id; the greatest word is no id. -/
def maxAnchorDistance : Nat := wordSpace - 1 - 1 - anchorBase

/-- The phases in which a process makes its addresses known. -/
inductive Phase where
  | empty
  | early
  | runtime
  | complete
  deriving DecidableEq, Repr

namespace Phase

/-- The place of a phase in the order of phases. -/
def rank : Phase → Nat
  | empty => 0
  | early => 1
  | runtime => 2
  | complete => 3

/-- The name of a phase in messages. -/
def name : Phase → String
  | empty => "Empty"
  | early => "Early"
  | runtime => "Runtime"
  | complete => "Complete"

end Phase

/-- The two groups of blobs that the compiler tiers register. -/
inductive Tier where
  | one
  | two
  deriving DecidableEq, Repr

/-- The bucket of a tier's blobs. -/
def Tier.bucket : Tier → Bucket
  | one => .tier1Blob
  | two => .tier2Blob

end CodeVault
