import CodeVault.Text.Hexadecimal

/-!
# Configuration fingerprints

The settings of a process that shape the code generated in it. Code may be used again only in a
process with the same fingerprint.

* eight bits of `flags` have names; the others are kept as they are;
* `Field.all` lists what is compared, in order; `firstDifference?` finds the first field in which
  two fingerprints differ, and `none` means that they are equal (`firstDifference?_eq_none`).
-/

namespace CodeVault

/-! ## 1. Fingerprints -/

/-- The collectors of a managed heap. -/
inductive Collector where
  | serial
  | parallel
  | g1
  | z
  | shenandoah
  | epsilon
  deriving DecidableEq, Repr

namespace Collector

/-- Every collector, by its code. -/
def all : List Collector := [.serial, .parallel, .g1, .z, .shenandoah, .epsilon]

/-- The code of a collector in a container. -/
def code : Collector → Nat
  | serial => 1
  | parallel => 2
  | g1 => 3
  | z => 4
  | shenandoah => 5
  | epsilon => 6

/-- The collector of a code. -/
def ofCode? (n : Nat) : Option Collector := all.find? (·.code == n)

/-- The name of a collector. -/
def name : Collector → String
  | serial => "Serial"
  | parallel => "Parallel"
  | g1 => "G1"
  | z => "Z"
  | shenandoah => "Shenandoah"
  | epsilon => "Epsilon"

theorem ofCode?_code (collector : Collector) : ofCode? collector.code = some collector := by
  cases collector <;> rfl

theorem code_of_ofCode? {n : Nat} {collector : Collector} (h : ofCode? n = some collector) :
    collector.code = n := by
  simpa using List.find?_some h

end Collector

/-- The settings that code depends on. -/
structure Fingerprint where
  collector : Collector
  oopShift : UInt32
  klassShift : UInt32
  objectAlignment : UInt32
  paddingWidth : UInt32
  flags : UInt32
  deriving DecidableEq, Repr

/-! ## 2. Named flags -/

/-- The names of the lowest flag bits, from bit 0 on. -/
def configFlagNames : List String :=
  ["DEBUG_BUILD", "COMPRESSED_OOPS", "COMPRESSED_CLASS_POINTERS", "SYSTEM_CLASS_ASSERTIONS",
   "USER_CLASS_ASSERTIONS", "ENABLE_CONTENDED_PADDING", "RESTRICT_CONTENDED_PADDING", "USE_TLAB"]

/-- The number of flag bits with a name. -/
def namedFlags : Nat := 8

namespace Fingerprint

/-- Whether a flag bit is set. -/
def hasFlag (fingerprint : Fingerprint) (bit : Nat) : Bool := fingerprint.flags.toNat.testBit bit

/-- The names of the flags that are set, and the other bits together as one number. -/
def flagTexts (fingerprint : Fingerprint) : List String :=
  let known := (configFlagNames.zipIdx.filter fun (_, bit) => fingerprint.hasFlag bit).map (·.1)
  let others := fingerprint.flags.toNat >>> namedFlags <<< namedFlags
  if others = 0 then known else known ++ [hexadecimal others]

/-- The flags as one text. -/
def flagsText (fingerprint : Fingerprint) : String := " | ".intercalate fingerprint.flagTexts

/-- The flags as messages show them. -/
def flagsMessage (fingerprint : Fingerprint) : String :=
  if fingerprint.flags = 0 then "ConfigFlags(0x0)" else s!"ConfigFlags({fingerprint.flagsText})"

/-- A fingerprint as reports show it. -/
def text (fingerprint : Fingerprint) : String :=
  "ConfigFingerprint \x7b gc: " ++ fingerprint.collector.name
    ++ s!", compressed_oop_shift: {fingerprint.oopShift}"
    ++ s!", compressed_klass_shift: {fingerprint.klassShift}"
    ++ s!", object_alignment: {fingerprint.objectAlignment}"
    ++ s!", contended_padding_width: {fingerprint.paddingWidth}"
    ++ s!", flags: {fingerprint.flagsMessage}" ++ " \x7d"

/-! ## 3. Comparison -/

/-- A part of a fingerprint that is compared on its own; `bits` are all flag bits together. -/
inductive Field where
  | collector
  | oopShift
  | klassShift
  | objectAlignment
  | paddingWidth
  | flag (bit : Nat)
  | bits
  deriving DecidableEq, Repr

namespace Field

/-- What is compared, in this order. -/
def all : List Field :=
  [.collector, .oopShift, .klassShift, .objectAlignment, .paddingWidth]
    ++ (List.range namedFlags).map .flag ++ [.bits]

/-- The name of a field in messages. -/
def name : Field → String
  | collector => "gc"
  | oopShift => "compressed_oop_shift"
  | klassShift => "compressed_klass_shift"
  | objectAlignment => "object_alignment"
  | paddingWidth => "contended_padding_width"
  | flag bit => configFlagNames[bit]?.getD "flags"
  | bits => "flags"

/-- The value of a field as a number. -/
def value (fingerprint : Fingerprint) : Field → Nat
  | collector => fingerprint.collector.code
  | oopShift => fingerprint.oopShift.toNat
  | klassShift => fingerprint.klassShift.toNat
  | objectAlignment => fingerprint.objectAlignment.toNat
  | paddingWidth => fingerprint.paddingWidth.toNat
  | flag bit => (fingerprint.hasFlag bit).toNat
  | bits => fingerprint.flags.toNat

/-- The value of a field as messages show it. -/
def valueText (fingerprint : Fingerprint) : Field → String
  | collector => fingerprint.collector.name
  | flag bit => if fingerprint.hasFlag bit then "true" else "false"
  | field => s!"{field.value fingerprint}"

end Field

/-- The first field in which two fingerprints differ. -/
def firstDifference? (a b : Fingerprint) : Option Field :=
  Field.all.find? fun field => field.value a != field.value b

/-- **Two fingerprints without a difference are equal.** -/
theorem firstDifference?_eq_none {a b : Fingerprint} : a.firstDifference? b = none ↔ a = b := by
  constructor
  · intro h
    have hall : ∀ field ∈ Field.all, field.value a = field.value b := by
      intro field hf
      have := List.find?_eq_none.1 h field hf
      simpa using this
    have h1 := hall .collector (by simp [Field.all])
    have h2 := hall .oopShift (by simp [Field.all])
    have h3 := hall .klassShift (by simp [Field.all])
    have h4 := hall .objectAlignment (by simp [Field.all])
    have h5 := hall .paddingWidth (by simp [Field.all])
    have h6 := hall .bits (by simp [Field.all])
    have hc : a.collector = b.collector := by
      simp only [Field.value] at h1
      have := Collector.ofCode?_code a.collector
      rw [h1, Collector.ofCode?_code] at this
      exact (Option.some.inj this).symm
    obtain ⟨ca, oa, ka, aa, pa, fa⟩ := a
    obtain ⟨cb, ob, kb, ab, pb, fb⟩ := b
    simp only [Field.value] at h2 h3 h4 h5 h6
    simp only [Fingerprint.mk.injEq]
    exact ⟨hc, UInt32.toNat_inj.1 h2, UInt32.toNat_inj.1 h3, UInt32.toNat_inj.1 h4,
      UInt32.toNat_inj.1 h5, UInt32.toNat_inj.1 h6⟩
  · rintro rfl
    simp [firstDifference?]

end Fingerprint

end CodeVault
