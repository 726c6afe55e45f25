import CodeVault.Proofs.Symbol.Loading

/-!
# When there is no room for strings

A list is refused by the number of ids that its strings and the local ones would take if they had
none in common.

* after loading, a table has as many ids as the list and the strings pinned before take, and the
  local strings that are not new in the list (`needed`, `size_load`);
* **a list is refused for room exactly when these, and the local strings that are new in it once
  more (`repeated`), are more than there may be** (`load_eq_full_iff`): strings that would share an
  id are counted twice;
* so a process with many strings is refused the very strings that it has, although it would not need
  one more id (`own_strings`).
-/

namespace CodeVault

namespace StringTable

variable {table after : StringTable} {strings : List CText}

/-! ## 1. Counting ids -/

/-- The number of ids in use once a list is loaded: those of the list and of what was pinned before,
    and those of the local strings that are not new in the list. -/
def needed (table : StringTable) (strings : List CText) : Nat :=
  max table.pinned strings.length +
    ((table.texts.drop table.pinned).filter (· ∉ strings.drop table.pinned)).length

/-- The number of local strings that are new in a list, and get the id that the list gives them. -/
def repeated (table : StringTable) (strings : List CText) : Nat :=
  ((table.texts.drop table.pinned).filter (· ∈ strings.drop table.pinned)).length

theorem needed_add_repeated (table : StringTable) (strings : List CText) :
    table.needed strings + table.repeated strings =
      max table.pinned strings.length + (table.size - table.pinned) := by
  have hparts := (table.texts.drop table.pinned).length_eq_length_filter_add
    (· ∈ strings.drop table.pinned)
  rw [List.length_drop, length_texts] at hparts
  rw [needed, repeated, hparts, Nat.add_assoc, Nat.add_comm (List.length _) (List.length _)]
  simp only [decide_not]

/-- **A list that is loaded takes as many ids as are needed.** -/
theorem size_load (hsound : table.Sound) (h : table.load strings = .ok after) :
    after.size = table.needed strings := by
  have hbehind := congrArg List.length (drop_texts_load hsound h)
  rw [hsound.nodup.sdiff_eq_filter, List.length_drop, length_texts] at hbehind
  have hpinned := (hsound.load h).pinned_le
  rw [needed, ← (load_ok h).1, ← hbehind, Nat.add_sub_cancel' hpinned]

/-! ## 2. Refusals -/

/-- **A list is refused for room exactly when what is needed and what is counted twice are more than
    there may be.** -/
theorem load_eq_full_iff :
    table.load strings = .error .stringTableFull ↔
      maxStrings < table.needed strings + table.repeated strings := by
  rw [needed_add_repeated]
  by_cases hroom : maxStrings < max table.pinned strings.length + (table.size - table.pinned)
  · simp [load, hroom]
  · cases hconflict : table.conflict? strings <;> simp [load, hroom, hconflict]

/-- **What agrees with what is pinned is loaded while there is room for all strings one by one.** -/
theorem exists_load (hroom : table.needed strings + table.repeated strings ≤ maxStrings)
    (hagrees : ∀ i, i < table.pinned → i < strings.length → table.text? i = strings[i]?) :
    ∃ after, table.load strings = .ok after := by
  rw [needed_add_repeated] at hroom
  unfold load
  simp only [Nat.not_lt.2 hroom, if_false, conflict?_eq_none hagrees]
  exact ⟨_, rfl⟩

end StringTable

namespace SymbolTable

open StringTable

/-! ## 3. In every process -/

/-- **Strings that are new, and for which there is room, are there once they were interned**, in
    their order. -/
theorem texts_after_interned (symbols : SymbolTable) (pointer : Address) {added : List CText}
    (hnew : (symbols.strings.texts ++ added).Nodup)
    (hroom : symbols.strings.size + added.length ≤ maxStrings) :
    (symbols.after (added.map (.interned pointer))).strings.texts = symbols.strings.texts ++ added ∧
      (symbols.after (added.map (.interned pointer))).strings.pinned = symbols.strings.pinned := by
  induction added generalizing symbols with
  | nil => exact ⟨(List.append_nil _).symm, rfl⟩
  | cons text added ih =>
    have hfresh : text ∉ symbols.strings.texts := fun hmem =>
      List.disjoint_of_nodup_append hnew hmem List.mem_cons_self
    rw [List.length_cons] at hroom
    rcases symbols.apply_interned pointer text with ⟨index, after, hrun, happly⟩ | ⟨cause, hrun, -⟩
    · obtain ⟨hpinned, htexts | ⟨htexts, -⟩⟩ := intern_ok hrun
      · have hmem : text ∈ after.texts := mem_texts_iff.2 ⟨index, text?_of_intern hrun⟩
        exact absurd (htexts ▸ hmem) hfresh
      · have hafter : (symbols.apply (.interned pointer text)).strings = after := by rw [happly]
        have hsize : after.size = symbols.strings.size + 1 := by
          rw [size_of_intern hrun, if_neg hfresh]
        obtain ⟨hrest, hkept⟩ := ih (symbols.apply (.interned pointer text))
          (by rw [hafter, htexts, List.append_assoc]; exact hnew) (by rw [hafter, hsize]; omega)
        rw [List.map_cons, after_cons, hrest, hkept, hafter, htexts, List.append_assoc]
        exact ⟨rfl, hpinned⟩
    · obtain ⟨-, hfull, -⟩ := intern_eq_error_iff.1 hrun
      omega

/-- **A process needs no more ids for its own strings**, but each of them is counted twice. -/
theorem own_strings (anchor : Anchor) (placement : Nat → Address) (pointer : Address)
    {strings : List CText} (hnodup : strings.Nodup) (hroom : strings.length ≤ maxStrings) :
    let table := ((empty anchor placement).after (strings.map (.interned pointer))).strings
    table.needed strings = strings.length ∧ table.repeated strings = strings.length := by
  intro table
  have hempty : (empty anchor placement).strings.size + strings.length ≤ maxStrings :=
    (Nat.zero_add strings.length).symm ▸ hroom
  obtain ⟨htexts, hpinned⟩ := texts_after_interned (empty anchor placement) pointer hnodup hempty
  have hall : table.texts = strings := htexts
  have hnone : table.pinned = 0 := hpinned
  simp [needed, repeated, hall, hnone]

/-- **A list is refused for room exactly when it and all local strings, those that it holds too
    counted once more, are more than there may be**, in every process. What is loaded takes only the
    ids that are needed; and what agrees with what is pinned is loaded when it is not refused for
    room. -/
theorem load_refused_iff (anchor : Anchor) (placement : Nat → Address) (events : List SymbolEvent)
    (strings : List CText) :
    let table := ((empty anchor placement).after events).strings
    (table.load strings = .error .stringTableFull ↔
      maxStrings < table.needed strings + table.repeated strings) ∧
    (∀ after, table.load strings = .ok after → after.size = table.needed strings) ∧
    (table.needed strings + table.repeated strings ≤ maxStrings →
      (∀ i, i < table.pinned → i < strings.length → table.text? i = strings[i]?) →
      ∃ after, table.load strings = .ok after) := by
  intro table
  have hsound : table.Sound := sound_after anchor placement events
  exact ⟨load_eq_full_iff, fun _ h => size_load hsound h, exists_load⟩

/-! An example: a process has interned six hundred strings, and is refused a list of these
strings. -/

/-- So many letters. -/
def letterRow (length : Nat) : CText := ⟨Array.replicate length 97, by simp⟩

/-- Strings of different lengths. -/
def letterRows (count : Nat) : List CText := (List.range count).map letterRow

theorem nodup_letterRows (count : Nat) : (letterRows count).Nodup := by
  refine List.Nodup.map (fun a b hsame => ?_) List.nodup_range
  have hsizes := congrArg (fun text : CText => text.val.size) hsame
  simpa [letterRow] using hsizes

theorem load_refused_iff_own :
    let table := ((empty .none inLine).after ((letterRows 600).map (.interned 8192))).strings
    table.needed (letterRows 600) = 600 ∧
      table.load (letterRows 600) = .error .stringTableFull := by
  intro table
  have hlength : (letterRows 600).length = 600 := by
    rw [letterRows, List.length_map, List.length_range]
  obtain ⟨hneeded, hrepeated⟩ :=
    own_strings .none inLine 8192 (nodup_letterRows 600) (by rw [hlength]; decide)
  rw [hlength] at hneeded hrepeated
  refine ⟨hneeded, (load_refused_iff .none inLine _ (letterRows 600)).1.2 ?_⟩
  rw [hneeded, hrepeated]
  decide

end SymbolTable

end CodeVault
