import CodeVault.Proofs.Artifact.Sections

/-!
# External words in the code

The targets of external words are written into the code bytes, in the order of the relocations.
Words may overlap, come more than once, or reach over the end of their section.

* `ExternalWord size relocation target`: the relocation is an external word that was resolved to
  `target`, and its eight bytes lie in a section of that size; `Covers` says at which places;
* a place of the code gets its byte from the last word that covers it (`getElem?_foldl_patchWord`);
* **exactly the words that lie in their sections are counted and written, every other byte stays,
  and writing them once more changes nothing** (`external_words_exact`).
-/

namespace CodeVault

open Bytes

/-! ## 1. Digits of a word -/

/-- The digits of a number to base 256, one by one. -/
theorem getElem?_wordBytes {width place : Nat} (value : Nat) (h : place < width) :
    (wordBytes width value)[place]? = some (UInt8.ofNat (value / 256 ^ place)) := by
  induction width generalizing value place with
  | zero => omega
  | succ width ih =>
    cases place with
    | zero => simp [wordBytes]
    | succ place =>
      rw [wordBytes, List.getElem?_cons_succ, ih _ (by omega), Nat.div_div_eq_div_mul,
        ← Nat.pow_succ']

theorem Bytes.getElem?_ofU64 (v : UInt64) {place : Nat} (h : place < 8) :
    (ofU64 v)[place]? = some (UInt8.ofNat (v.toNat / 256 ^ place)) := by
  rw [ofU64, List.getElem?_toArray, getElem?_wordBytes _ h]

namespace CodeSection

variable {size i : Nat} {relocation : Relocation} {target : Address}

/-! ## 2. One word -/

/-- An external word that was resolved to an address, and whose eight bytes lie in a section of that
    size. -/
structure ExternalWord (size : Nat) (relocation : Relocation) (target : Address) : Prop where
  kind : relocation.kind = .externalWord
  value : relocation.value = .address target
  inside : relocation.offset.toNat + 8 ≤ size

/-- One of the eight bytes of an external word is at place `i`. -/
structure Covers (size i : Nat) (relocation : Relocation) (target : Address) : Prop
    extends ExternalWord size relocation target where
  first : relocation.offset.toNat ≤ i
  last : i < relocation.offset.toNat + 8

theorem externalTarget?_eq_some :
    externalTarget? relocation = some target ↔
      relocation.kind = .externalWord ∧ relocation.value = .address target := by
  unfold externalTarget?
  split
  · rename_i found hkind hvalue
    simp only [Option.some.injEq, hkind, hvalue, RelocationValue.address.injEq, true_and]
  · rename_i hother
    simp only [reduceCtorEq, false_iff, not_and]
    exact fun hkind hvalue => hother target hkind hvalue

instance (size : Nat) (relocation : Relocation) :
    Decidable (∃ target, ExternalWord size relocation target) :=
  decidable_of_iff ((externalTarget? relocation).isSome = true ∧
    relocation.offset.toNat + 8 ≤ size) <| by
    simp only [Option.isSome_iff_exists, externalTarget?_eq_some]
    constructor
    · rintro ⟨⟨target, hkind, hvalue⟩, hinside⟩
      exact ⟨target, hkind, hvalue, hinside⟩
    · rintro ⟨target, hkind, hvalue, hinside⟩
      exact ⟨⟨target, hkind, hvalue⟩, hinside⟩

/-- The byte that a relocation puts at a place of a section of that size. -/
def byteAt? (size i : Nat) (relocation : Relocation) : Option UInt8 :=
  (externalTarget? relocation).bind fun target =>
    if relocation.offset.toNat + 8 ≤ size ∧ relocation.offset.toNat ≤ i then
      (ofU64 target)[i - relocation.offset.toNat]?
    else none

theorem byteAt?_of_covers (h : Covers size i relocation target) :
    byteAt? size i relocation =
      some (UInt8.ofNat (target.toNat / 256 ^ (i - relocation.offset.toNat))) := by
  have hlast := h.last
  rw [byteAt?, externalTarget?_eq_some.2 ⟨h.kind, h.value⟩, Option.bind_some,
    if_pos ⟨h.inside, h.first⟩, getElem?_ofU64 _ (by omega)]

theorem byteAt?_eq_none (h : ∀ target, ¬Covers size i relocation target) :
    byteAt? size i relocation = none := by
  cases htarget : externalTarget? relocation with
  | none => rw [byteAt?, htarget, Option.bind_none]
  | some target =>
    obtain ⟨hkind, hvalue⟩ := externalTarget?_eq_some.1 htarget
    rw [byteAt?, htarget, Option.bind_some]
    split
    · rename_i hplace
      refine Array.getElem?_eq_none
        (Nat.le_of_not_lt fun hlt => h target ⟨⟨hkind, hvalue, hplace.1⟩, hplace.2, ?_⟩)
      rw [size_ofU64] at hlt
      omega
    · rfl

theorem ExternalWord.room {size : Nat} (h : ExternalWord size relocation target) :
    relocation.offset.toNat + (ofU64 target).size ≤ size := by
  rw [size_ofU64]
  exact h.inside

/-- An external word that lies in the section is written and counted. -/
theorem patchWord_of_externalWord {state : Bytes × Nat}
    (h : ExternalWord state.1.size relocation target) :
    patchWord state relocation =
      (state.1.overwrite relocation.offset.toNat (ofU64 target), state.2 + 1) := by
  rw [patchWord, externalTarget?_eq_some.2 ⟨h.kind, h.value⟩]
  exact if_pos h.inside

/-- Any other relocation is passed over. -/
theorem patchWord_of_other {state : Bytes × Nat}
    (h : ∀ target, ¬ExternalWord state.1.size relocation target) :
    patchWord state relocation = state := by
  unfold patchWord
  split
  · rfl
  · rename_i target htarget
    obtain ⟨hkind, hvalue⟩ := externalTarget?_eq_some.1 htarget
    exact if_neg fun hinside => h target ⟨hkind, hvalue, hinside⟩

theorem size_patchWord (state : Bytes × Nat) (relocation : Relocation) :
    (patchWord state relocation).1.size = state.1.size := by
  by_cases h : ∃ target, ExternalWord state.1.size relocation target
  · obtain ⟨target, h⟩ := h
    rw [patchWord_of_externalWord h, size_overwrite h.room]
  · rw [patchWord_of_other (not_exists.1 h)]

/-- **Writing one word puts its bytes in their places**, and leaves all others. -/
theorem getElem?_patchWord (state : Bytes × Nat) (relocation : Relocation) (i : Nat) :
    (patchWord state relocation).1[i]? = (byteAt? state.1.size i relocation).or state.1[i]? := by
  by_cases h : ∃ target, ExternalWord state.1.size relocation target
  · obtain ⟨target, h⟩ := h
    rw [patchWord_of_externalWord h, getElem?_overwrite h.room, size_ofU64]
    by_cases hplace : relocation.offset.toNat ≤ i ∧ i < relocation.offset.toNat + 8
    · rw [if_neg (Nat.not_lt.2 hplace.1), if_pos hplace.2,
        byteAt?_of_covers ⟨h, hplace.1, hplace.2⟩, Option.some_or, getElem?_ofU64 _ (by omega)]
    · rw [byteAt?_eq_none fun _ hcovers => hplace ⟨hcovers.first, hcovers.last⟩, Option.none_or]
      by_cases hbefore : i < relocation.offset.toNat
      · rw [if_pos hbefore]
      · rw [if_neg hbefore, if_neg fun hlast => hplace ⟨Nat.le_of_not_lt hbefore, hlast⟩]
  · rw [patchWord_of_other (not_exists.1 h),
      byteAt?_eq_none fun target hcovers => h ⟨target, hcovers.toExternalWord⟩, Option.none_or]

/-! ## 3. Words one after the other -/

theorem size_foldl_patchWord (relocations : List Relocation) (state : Bytes × Nat) :
    (relocations.foldl patchWord state).1.size = state.1.size := by
  induction relocations generalizing state with
  | nil => rfl
  | cons relocation relocations ih => rw [List.foldl_cons, ih, size_patchWord]

/-- The words that are counted are those that lie in the section. -/
theorem count_foldl_patchWord (relocations : List Relocation) (state : Bytes × Nat) :
    (relocations.foldl patchWord state).2 =
      state.2 + relocations.countP fun relocation => ∃ target,
        ExternalWord state.1.size relocation target := by
  induction relocations generalizing state with
  | nil => rfl
  | cons relocation relocations ih =>
    rw [List.foldl_cons, ih, size_patchWord, List.countP_cons]
    by_cases h : ∃ target, ExternalWord state.1.size relocation target
    · rw [if_pos (decide_eq_true h)]
      obtain ⟨target, h⟩ := h
      rw [patchWord_of_externalWord h]
      dsimp only
      omega
    · rw [if_neg (by simpa using h), patchWord_of_other (not_exists.1 h), Nat.add_zero]

/-- **A place gets its byte from the last word that covers it.** -/
theorem getElem?_foldl_patchWord (relocations : List Relocation) (state : Bytes × Nat) (i : Nat) :
    (relocations.foldl patchWord state).1[i]? =
      (relocations.reverse.findSome? (byteAt? state.1.size i)).or state.1[i]? := by
  induction relocations generalizing state with
  | nil => rfl
  | cons relocation relocations ih =>
    rw [List.foldl_cons, ih, size_patchWord, getElem?_patchWord, List.reverse_cons,
      List.findSome?_append, List.findSome?_singleton, Option.or_assoc]

/-! ## 4. Sections -/

variable {part : CodeSection}

/-- The relocations of a section that are external words in it. -/
def externalWords (part : CodeSection) : List Relocation :=
  part.relocations.filter fun relocation => ∃ target, ExternalWord part.bytes.size relocation target

/-- A section, and what it is when its external words have been written into the code. -/
structure Patched (part patched : CodeSection) : Prop where
  same : patched = { part with bytes := patched.bytes }
  size_eq : patched.bytes.size = part.bytes.size
  covered : ∀ ⦃earlier relocation later target i⦄,
    part.relocations = earlier ++ relocation :: later →
    Covers part.bytes.size i relocation target →
    (∀ other ∈ later, ∀ target, ¬Covers part.bytes.size i other target) →
    patched.bytes[i]? = some (UInt8.ofNat (target.toNat / 256 ^ (i - relocation.offset.toNat)))
  uncovered : ∀ ⦃i⦄, (∀ relocation ∈ part.relocations, ∀ target,
    ¬Covers part.bytes.size i relocation target) →
    patched.bytes[i]? = part.bytes[i]?

theorem patchExternalWords_eq (part : CodeSection) :
    part.patchExternalWords =
      ({ part with bytes := (part.relocations.foldl patchWord (part.bytes, 0)).1 },
      part.externalWords.length) := by
  have hcount := count_foldl_patchWord part.relocations (part.bytes, 0)
  rw [List.countP_eq_length_filter, Nat.zero_add] at hcount
  rw [externalWords, ← hcount]
  rfl

theorem findSome?_of_uncovered {relocations : List Relocation}
    (h : ∀ relocation ∈ relocations, ∀ target, ¬Covers size i relocation target) :
    relocations.reverse.findSome? (byteAt? size i) = none :=
  List.findSome?_eq_none_iff.2 fun relocation hmem =>
    byteAt?_eq_none (h relocation (List.mem_reverse.1 hmem))

/-- **The code of a section has at every place the byte of the last word that covers it.** -/
theorem patched_patchExternalWords (part : CodeSection) :
    part.Patched part.patchExternalWords.1 := by
  rw [patchExternalWords_eq]
  refine ⟨rfl, size_foldl_patchWord _ _,
    fun earlier relocation later target i hlist hcovers hlater => ?_, fun i huncovered => ?_⟩
  · dsimp only
    rw [getElem?_foldl_patchWord, hlist, List.reverse_append, List.findSome?_append,
      List.reverse_cons, List.findSome?_append, findSome?_of_uncovered hlater,
      List.findSome?_singleton, byteAt?_of_covers hcovers, Option.none_or, Option.some_or,
      Option.some_or]
  · dsimp only
    rw [getElem?_foldl_patchWord, findSome?_of_uncovered huncovered, Option.none_or]

/-- **Writing the words of a section once more changes nothing**, and counts as many. -/
theorem patchExternalWords_patched (part : CodeSection) :
    part.patchExternalWords.1.patchExternalWords = part.patchExternalWords := by
  have hsize := size_foldl_patchWord part.relocations (part.bytes, 0)
  have hbytes : (part.relocations.foldl patchWord
      ((part.relocations.foldl patchWord (part.bytes, 0)).1, 0)).1 =
      (part.relocations.foldl patchWord (part.bytes, 0)).1 := by
    refine Array.ext_getElem? fun i => ?_
    rw [getElem?_foldl_patchWord, getElem?_foldl_patchWord, hsize]
    cases part.relocations.reverse.findSome? (byteAt? part.bytes.size i) <;> rfl
  rw [patchExternalWords_eq part, patchExternalWords_eq]
  simp only [hbytes, externalWords, hsize]

end CodeSection

/-! ## 5. Artifacts -/

namespace Artifact

/-- The number of external words that lie in their sections. -/
def externalWordCount (artifact : Artifact) : Nat :=
  (artifact.sections.toList.flatMap CodeSection.externalWords).length

/-- **External words are written exactly.** What is answered is the number of relocations that are
    external words with an address and whose eight bytes lie in their section. A place of a section
    that such words cover has the byte of the last of them in the list, by the little-endian digits
    of its target; all other bytes, and all else of the artifact, stay. Doing it once more answers
    the same number and changes nothing. -/
theorem external_words_exact (artifact : Artifact) :
    artifact.patchExternalWords.2 = artifact.externalWordCount ∧
    artifact.patchExternalWords.1 =
      { artifact with sections := artifact.patchExternalWords.1.sections } ∧
    (∀ kind, (artifact.sections.get kind).Patched
      (artifact.patchExternalWords.1.sections.get kind)) ∧
    artifact.patchExternalWords.1.patchExternalWords = artifact.patchExternalWords := by
  refine ⟨?_, rfl, fun kind => ?_, ?_⟩
  · simp only [patchExternalWords, Sections.map, CodeSection.patchExternalWords_eq,
      externalWordCount, Sections.toList, List.flatMap_cons, List.flatMap_nil, List.length_append,
      List.length_nil]
    omega
  · cases kind <;> exact CodeSection.patched_patchExternalWords _
  · simp only [patchExternalWords, Sections.map, CodeSection.patchExternalWords_patched]

/-! An example: two words that overlap, and one that reaches over the end. -/

/-- A stub of twelve bytes with three words, four bytes apart. -/
def overlappingStub : Artifact :=
  { method "stub" 1 0 with
    kind := .stub
    sections := ⟨.empty .consts, ⟨.insts, 8192, zeros 12, 12,
      [⟨.externalWord, 0, 0, .address 0x1111111111111111⟩,
        ⟨.externalWord, 4, 0, .address 0x2222222222222222⟩,
       ⟨.externalWord, 8, 0, .address 0x3333333333333333⟩]⟩, .empty .stubs⟩ }

example : overlappingStub.patchExternalWords.2 = 2 ∧
    overlappingStub.patchExternalWords.1.sections.insts.bytes =
      #[0x11, 0x11, 0x11, 0x11, 0x22, 0x22, 0x22, 0x22, 0x22, 0x22, 0x22, 0x22] := by
  decide +kernel

end Artifact

end CodeVault
