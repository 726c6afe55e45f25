import CodeVault.Proofs.Symbol.Addresses

/-!
# What interning answers

Callers hand over a pointer together with the string that is there now; the same pointer may come
again with another string, and it may be the pointer to a copy that the table made (`Presented`).

* interning is refused exactly when every id is in use and none has the string
  (`intern_eq_error_iff`);
* else the id that is answered has the string, and the pointer leads to it from then on
  (`text?_of_intern`, `indexOfAddress?_of_intern`), whatever the pointer was given for before;
* **interning is faithful** (`intern_faithful`): all this holds in every process, and ids in use
  keep their string and their copy.
-/

namespace CodeVault

namespace StringTable

variable {table after : StringTable} {pointer : Address} {text : CText} {index : Nat}

/-! ## 1. When interning is refused -/

theorem mem_texts_iff : text ∈ table.texts ↔ ∃ i, table.text? i = some text := by
  simp only [List.mem_iff_getElem?, text?_eq]

theorem mem_texts_of_indexOfText? (h : table.indexOfText? text = some index) :
    text ∈ table.texts := by
  obtain ⟨hlt, hsame, -⟩ := Array.findIdx?_eq_some_iff_getElem.1 h
  refine mem_texts_iff.2 ⟨index, ?_⟩
  rw [text?, Array.getElem?_eq_getElem hlt, Option.map_some, eq_of_beq hsame]

/-- **A string is refused exactly when it is new and no id is left for it.** -/
theorem intern_eq_error_iff {cause : SymbolError} :
    table.intern pointer text = .error cause ↔
      cause = .stringTableFull ∧ maxStrings ≤ table.size ∧ text ∉ table.texts := by
  unfold intern
  split
  · rename_i found hfound
    have hmem := mem_texts_iff.2 ⟨found, eq_of_beq (Option.filter_eq_some_iff.1 hfound).2⟩
    simp [hmem]
  · split
    · rename_i found hfound
      simp [mem_texts_of_indexOfText? hfound]
    · rename_i hnew
      have hnot := not_mem_of_indexOfText? hnew
      split
      · rename_i hfull
        simp [hnot, hfull, eq_comm]
      · rename_i hroom
        simp [hroom]

/-- What is not refused is answered. -/
theorem exists_intern (h : table.size < maxStrings ∨ text ∈ table.texts) :
    ∃ index after, table.intern pointer text = .ok (index, after) := by
  cases hrun : table.intern pointer text with
  | ok answer => exact ⟨answer.1, answer.2, rfl⟩
  | error cause =>
    obtain ⟨-, hfull, hnew⟩ := intern_eq_error_iff.1 hrun
    rcases h with hroom | hmem
    · omega
    · exact absurd hmem hnew

/-! ## 2. What is answered -/

/-- **The id that is answered has the string.** -/
theorem text?_of_intern (h : table.intern pointer text = .ok (index, after)) :
    after.text? index = some text := by
  rcases intern_cases h with ⟨rfl, -, htext⟩ | ⟨-, copy, hcopy, rfl, -⟩
  · exact htext
  · rw [text?, hcopy, Option.map_some]

/-- **One more id is in use if the string is new**, and none if it is not. -/
theorem size_of_intern (h : table.intern pointer text = .ok (index, after)) :
    after.size = if text ∈ table.texts then table.size else table.size + 1 := by
  rcases (intern_ok h).2 with htexts | ⟨htexts, hnew, -⟩
  · have hmem : text ∈ table.texts := htexts ▸ mem_texts_iff.2 ⟨index, text?_of_intern h⟩
    rw [if_pos hmem, ← length_texts, htexts, length_texts]
  · rw [if_neg hnew, ← length_texts, htexts, List.length_append, length_texts,
      List.length_singleton]

/-- **Ids in use keep their string and their copy.** -/
theorem kept_of_intern (h : table.intern pointer text = .ok (index, after)) {other : Nat}
    (hlt : other < table.size) :
    after.text? other = table.text? other ∧ after.addressOf? other = table.addressOf? other := by
  have hkept := getElem?_copies_intern h hlt
  exact ⟨by rw [text?, text?, hkept], by rw [addressOf?, addressOf?, hkept, (copies_intern h).1]⟩

/-- What the host promises of a pointer with the string that is there: if a copy is there, it has
    that string, since copies are never written to; and a copy that has to be made for the string is
    put elsewhere. -/
structure Presented (table : StringTable) (pointer : Address) (text : CText) : Prop where
  copy : ∀ copy ∈ table.copies, table.placement copy.serial = pointer → copy.text = text
  apart : text ∉ table.texts → table.placement table.size ≠ pointer

/-- A pointer to a copy stands for the string that is there. -/
theorem Presented.indexOfAddress? (h : table.Presented pointer text)
    (hat : table.HasCopyAt pointer) :
    ∃ found, table.indexOfAddress? pointer = some found ∧ table.text? found = some text := by
  obtain ⟨found, hfound⟩ := exists_indexOfCopy? hat
  obtain ⟨hlt, hplaced, -⟩ := Array.findIdx?_eq_some_iff_getElem.1 hfound
  refine ⟨found, by simp only [StringTable.indexOfAddress?, hfound], ?_⟩
  rw [text?, Array.getElem?_eq_getElem hlt, Option.map_some,
    h.copy _ (Array.getElem_mem hlt) (eq_of_beq hplaced)]

/-- A copy that is at the pointer afterwards was there before. -/
theorem Presented.hasCopyAt (hpresented : table.Presented pointer text)
    (h : table.intern pointer text = .ok (index, after)) (hat : after.HasCopyAt pointer) :
    table.HasCopyAt pointer := by
  obtain ⟨found, hmem, hplaced⟩ := hasCopyAt_iff.1 hat
  obtain ⟨hplacement, hsame | ⟨hnew, hpushed⟩⟩ := copies_intern h
  · exact hasCopyAt_iff.2 ⟨found, hsame ▸ hmem, hplacement ▸ hplaced⟩
  · rcases Array.mem_push.1 (hpushed ▸ hmem) with hold | rfl
    · exact hasCopyAt_iff.2 ⟨found, hold, hplacement ▸ hplaced⟩
    · exact absurd (hplacement ▸ hplaced) (hpresented.apart hnew)

/-- **The pointer leads to the id that is answered**, whatever it was given for before. -/
theorem indexOfAddress?_of_intern (hnumbered : table.Numbered)
    (hpresented : table.Presented pointer text)
    (h : table.intern pointer text = .ok (index, after)) :
    after.indexOfAddress? pointer = some index := by
  rcases intern_cases h with ⟨rfl, hindex, -⟩ | ⟨hother, copy, hcopy, htext, haliases⟩
  · exact hindex
  · -- No copy is at the pointer, or the pointer would have stood for the string already.
    have hnot : ¬ after.HasCopyAt pointer := fun hat => by
      obtain ⟨found, hfound, hsame⟩ := hpresented.indexOfAddress? (hpresented.hasCopyAt h hat)
      exact hother found hfound hsame
    have hserial := (hnumbered.extends (extends_intern h)).indexOfSerial?_eq hcopy
    rw [StringTable.indexOfAddress?, indexOfCopy?_eq_none hnot]
    show (after.aliases.lookup pointer).bind after.indexOfSerial? = some index
    rw [haliases, List.lookup_cons_self, Option.bind_some, hserial]

end StringTable

namespace SymbolTable

/-! ## 3. In every process -/

/-- The strings of every process are sound. -/
theorem sound_after (anchor : Anchor) (placement : Nat → Address) (events : List SymbolEvent) :
    ((empty anchor placement).after events).strings.Sound :=
  (Reached.sound ⟨anchor, placement, events, rfl⟩).strings

/-- The strings of every process have numbered copies. -/
theorem numbered_after (anchor : Anchor) (placement : Nat → Address) (events : List SymbolEvent) :
    ((empty anchor placement).after events).strings.Numbered :=
  (known_after (StringTable.known_empty placement) events).numbered

/-- **Interning is faithful.** In every process, whatever was interned and loaded before: a string
    that is presented at a pointer is refused exactly when all ids are in use and none has the
    string, and then nothing changes; else an id is answered that has the string, the pointer leads
    to that id, one more id is in use exactly if the string is new, and all others keep their string
    and their copy. -/
theorem intern_faithful (anchor : Anchor) (placement : Nat → Address) (events : List SymbolEvent)
    (pointer : Address) (text : CText)
    (hpresented : ((empty anchor placement).after events).strings.Presented pointer text) :
    let symbols := (empty anchor placement).after events
    let table := symbols.strings
    (∀ cause, table.intern pointer text = .error cause ↔
      cause = .stringTableFull ∧ table.size = maxStrings ∧ text ∉ table.texts) ∧
    (table.size = maxStrings → text ∉ table.texts →
      symbols.apply (.interned pointer text) = symbols) ∧
    ((table.size = maxStrings → text ∈ table.texts) → ∃ index after,
      table.intern pointer text = .ok (index, after) ∧
      symbols.apply (.interned pointer text) = { symbols with strings := after } ∧
      after.text? index = some text ∧
      after.indexOfAddress? pointer = some index ∧
      after.size = (if text ∈ table.texts then table.size else table.size + 1) ∧
      ∀ other, other < table.size →
        after.text? other = table.text? other ∧
        after.addressOf? other = table.addressOf? other) := by
  intro symbols table
  have hsize : table.size ≤ maxStrings := (sound_after anchor placement events).size_le
  have hrefused : ∀ cause, table.intern pointer text = .error cause ↔
      cause = .stringTableFull ∧ table.size = maxStrings ∧ text ∉ table.texts := fun cause => by
    rw [StringTable.intern_eq_error_iff, Nat.le_antisymm_iff, and_iff_right hsize]
  refine ⟨hrefused, fun hfull hnew => ?_, fun hroom => ?_⟩
  · have hrun := (hrefused .stringTableFull).2 ⟨rfl, hfull, hnew⟩
    simp only [apply, intern, show symbols.strings.intern pointer text = _ from hrun]
  · have hfree : table.size < maxStrings ∨ text ∈ table.texts := by
      rcases Nat.eq_or_lt_of_le hsize with hfull | hlt
      · exact .inr (hroom hfull)
      · exact .inl hlt
    obtain ⟨index, after, hrun⟩ : ∃ index after, table.intern pointer text = .ok (index, after) :=
      StringTable.exists_intern hfree
    refine ⟨index, after, hrun, ?_, StringTable.text?_of_intern hrun, ?_,
      StringTable.size_of_intern hrun, fun other hlt => StringTable.kept_of_intern hrun hlt⟩
    · simp only [apply, intern, show symbols.strings.intern pointer text = _ from hrun]
    · exact StringTable.indexOfAddress?_of_intern (numbered_after anchor placement events)
        hpresented hrun

/-! An example: a buffer is handed over again, with other contents. -/

/-- Where copies are put, one behind the other. -/
def inLine (serial : Nat) : Address := UInt64.ofNat (20480 + 64 * serial)

/-- Two digits. -/
def digits : CText := ⟨#[52, 50], by simp⟩

theorem intern_faithful_reused :
    let table := ((empty .none inLine).after [.interned 8192 letters]).strings
    table.Presented 8192 digits ∧ ∃ index after, table.intern 8192 digits = .ok (index, after) ∧
      after.text? index = some digits ∧ after.indexOfAddress? 8192 = some index ∧ after.size = 2 ∧
      after.text? 0 = some letters := by
  intro table
  have hpresented : table.Presented 8192 digits := ⟨by decide +kernel, fun _ => by decide +kernel⟩
  obtain ⟨-, -, hanswer⟩ :=
    intern_faithful .none inLine [.interned 8192 letters] 8192 digits hpresented
  obtain ⟨index, after, hrun, -, htext, hindex, hsize, hothers⟩ :=
    hanswer fun hfull => absurd hfull (by decide +kernel)
  refine ⟨hpresented, index, after, hrun, htext, hindex, hsize.trans (by decide +kernel), ?_⟩
  exact (hothers 0 (by decide +kernel)).1.trans (by decide +kernel)

end SymbolTable

end CodeVault
