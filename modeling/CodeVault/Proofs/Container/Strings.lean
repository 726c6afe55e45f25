import CodeVault.Proofs.Container.ReadBack

/-!
# The string table of a container

Strings are written as the bytes that they are, and are read as texts.

* reading stops at the first string that is not text (`Laid.strings_error`);
* **what was built gives its strings back exactly when all of them are text**, and all its entries
  are of some kind (`strings_ofBytes_iff`); the bytes of the strings are there in any case.
-/

namespace CodeVault

open Bytes Cursor

/-! ## 1. Texts and faults -/

theorem CText.isText_or_fault (text : CText) :
    text.IsText ∨ ∃ fault, Utf8.decode text.val = .error fault := by
  unfold CText.IsText
  cases Utf8.decode text.val with
  | ok decoded => exact .inl ⟨decoded, rfl⟩
  | error fault => exact .inr ⟨fault, rfl⟩

/-- The strings of a list are texts, or one is the first that is not. -/
theorem CText.all_isText_or_first_fault (strings : List CText) :
    (∀ text ∈ strings, text.IsText) ∨ ∃ good bad rest fault, strings = good ++ bad :: rest ∧
      (∀ text ∈ good, text.IsText) ∧ Utf8.decode bad.val = .error fault := by
  induction strings with
  | nil => exact .inl (by simp)
  | cons text strings ih =>
    rcases text.isText_or_fault with htext | ⟨fault, hfault⟩
    · rcases ih with hall | ⟨good, bad, rest, fault, rfl, hgood, hfault⟩
      · exact .inl (List.forall_mem_cons.2 ⟨htext, hall⟩)
      · exact .inr ⟨text :: good, bad, rest, fault, rfl, List.forall_mem_cons.2 ⟨htext, hgood⟩,
          hfault⟩
    · exact .inr ⟨[], text, strings, fault, rfl, by simp, hfault⟩

namespace Container

/-! ## 2. Reading -/

/-- Reading stops behind a string that is not text. -/
theorem leads_readString {text : CText} {fault : Utf8.Fault}
    (h : Utf8.decode text.val = .error fault) :
    Leads text.terminated readString (corrupt (.notText fault)) := by
  have hlead := (spells_readTerminated text).leads (f := fun text => do
    let _ ← decodeText text.val
    return text)
  intro data pos hpart hpos
  obtain ⟨h', hrun⟩ := hlead hpart hpos
  refine ⟨h', hrun.trans ?_⟩
  simp only [decodeText, h]
  rfl

/-- **Reading stops behind the first string that is not text**, however many are to be read. -/
theorem leads_readMany {good : List CText} {bad : CText} {fault : Utf8.Fault}
    (hgood : ∀ text ∈ good, text.IsText) (hbad : Utf8.decode bad.val = .error fault) (more : Nat) :
    Leads (join (good.map CText.terminated) ++ bad.terminated)
      (readMany readString (good.length + (more + 1))) (throw (.corrupt (.notText fault))) := by
  induction good with
  | nil =>
    rw [List.map_nil, join_nil, Array.empty_append, List.length_nil, Nat.zero_add]
    exact (leads_readString hbad).bind_throw _
  | cons text good ih =>
    obtain ⟨htext, hgood⟩ := List.forall_mem_cons.1 hgood
    rw [List.map_cons, join_cons, Array.append_assoc, List.length_cons, Nat.add_right_comm]
    exact (Laid.spells_readString htext).bind_leads ((ih hgood).bind_throw _)

namespace Laid

variable {strings : List CText} {merged : Merged} {fingerprint : Fingerprint} {image : Bytes}
  {header : Header} {entries : List Entry}

/-- **The strings cannot be read back if one of them is not text**: the first such is reported. -/
theorem strings_error {good rest : List CText} {bad : CText} {fault : Utf8.Fault}
    (h : Laid strings merged fingerprint image header entries)
    (hsplit : strings = good ++ bad :: rest) (hgood : ∀ text ∈ good, text.IsText)
    (hbad : Utf8.decode bad.val = .error fault) :
    Container.strings ⟨image, header⟩ = .error (.corrupt (.notText fault)) := by
  have hstart : header.strings.offset.toNat ≤ image.size := by
    rw [h.stringsAt]
    exact Nat.le_trans (Nat.le_add_right _ _) h.parts.stringsAt.le
  have hcount : header.strings.count.toNat = good.length + (rest.length + 1) := by
    rw [h.stringCount, hsplit, List.length_append, List.length_cons]
  have hpart : PartAt image header.strings.offset.toNat (Layout.stringBytes strings) :=
    h.stringsAt ▸ h.parts.stringsAt
  -- The bytes up to the end of the first string that is not text; reading gets no further.
  rw [stringBytes_eq, hsplit, List.map_append, List.map_cons, join_append, join_cons,
    ← Array.append_assoc, partAt_append] at hpart
  obtain ⟨_, hrun⟩ := leads_readMany hgood hbad rest.length hpart.1 hstart
  simp only [Container.strings, hcount, runAt_eq hstart, hrun]
  rfl

/-- If strings are read at all, they are those that were built in. -/
theorem eq_of_strings {read : List CText} (h : Laid strings merged fingerprint image header entries)
    (hread : Container.strings ⟨image, header⟩ = .ok read) : read = strings := by
  rcases CText.all_isText_or_first_fault strings with
    hall | ⟨good, bad, rest, fault, hsplit, hgood, hbad⟩
  · cases hread.symm.trans (h.strings_ok hall)
    rfl
  · cases hread.symm.trans (h.strings_error hsplit hgood hbad)

/-- If strings are read at all, all of them are text. -/
theorem isText_of_strings {read : List CText}
    (h : Laid strings merged fingerprint image header entries)
    (hread : Container.strings ⟨image, header⟩ = .ok read) : ∀ text ∈ strings, text.IsText := by
  rcases CText.all_isText_or_first_fault strings with
    hall | ⟨good, bad, rest, fault, hsplit, hgood, hbad⟩
  · exact hall
  · cases hread.symm.trans (h.strings_error hsplit hgood hbad)

end Laid

/-! ## 3. The strings of what was built -/

/-- **What was built gives its strings back exactly when all its entries are of some kind and all
    its strings are text.** Otherwise it is not accepted, or reading stops at the first string that
    is not text, although the bytes of all strings are there, in their order. -/
theorem strings_ofBytes_iff {strings : List CText} {merged : Merged} {fingerprint : Fingerprint}
    {now : UInt64} {image : Bytes} (h : build strings merged fingerprint now = .ok image) :
    ((ofBytes image >>= Container.strings) = .ok strings ↔
      (∀ entry ∈ merged.entries, entry.kind ≠ .none) ∧ ∀ text ∈ strings, text.IsText) ∧
    ∃ header, (∀ container, ofBytes image = .ok container → container = ⟨image, header⟩) ∧
      rawStrings ⟨image, header⟩ = .ok strings ∧
      ∀ good bad rest fault, strings = good ++ bad :: rest → (∀ text ∈ good, text.IsText) →
        Utf8.decode bad.val = .error fault →
          Container.strings ⟨image, header⟩ = .error (.corrupt (.notText fault)) := by
  obtain ⟨header, entries, hlaid⟩ := laid_of_build h
  refine ⟨⟨fun hread => ?_, fun ⟨hkinds, htext⟩ => ?_⟩, header, fun _ => hlaid.eq_of_ofBytes,
    hlaid.rawStrings_ok, fun _ _ _ _ hsplit hgood hbad => hlaid.strings_error hsplit hgood hbad⟩
  · obtain ⟨container, haccepted, hstrings⟩ := except_bind_eq_ok.1 hread
    obtain rfl := hlaid.eq_of_ofBytes haccepted
    constructor
    · intro entry hmem hkind
      cases haccepted.symm.trans (hlaid.ofBytes_error (Array.mem_toList_iff.2 hmem) hkind).2
    · exact hlaid.isText_of_strings hstrings
  · have haccepted := hlaid.ofBytes_ok fun entry hmem => hkinds entry (Array.mem_toList_iff.1 hmem)
    exact except_bind_eq_ok.2 ⟨_, haccepted, hlaid.strings_ok htext⟩

/-- A string that is not text. -/
def straySequence : CText := ⟨#[255], by simp⟩

/-- A merge of one stub without bytes. -/
def mergedStub : Merged := ⟨#[Entry.blank .stub 1], #[], [⟨1, 0⟩], #[], 0⟩

theorem strings_ofBytes_straySequence :
    ∃ image, build [straySequence] mergedStub ⟨.serial, 0, 0, 0, 0, 0⟩ 0 = .ok image ∧
      (ofBytes image >>= Container.strings) ≠ .ok [straySequence] := by
  have hbuilds : (build [straySequence] mergedStub ⟨.serial, 0, 0, 0, 0, 0⟩ 0).isOk = true := by
    decide +kernel
  cases hbuild : build [straySequence] mergedStub ⟨.serial, 0, 0, 0, 0, 0⟩ 0 with
  | error cause =>
    rw [hbuild] at hbuilds
    cases hbuilds
  | ok image =>
    refine ⟨image, rfl, fun hread => ?_⟩
    obtain ⟨-, htext⟩ := (strings_ofBytes_iff hbuild).1.1 hread
    obtain ⟨decoded, hdecoded⟩ := htext straySequence List.mem_cons_self
    have hfault : Utf8.decode straySequence.val = .error (.invalid 1 0) := by decide +kernel
    cases hfault.symm.trans hdecoded

end Container

end CodeVault
