import CodeVault.Proofs.Lists
import CodeVault.Symbol.StringTable

/-!
# How long ids of strings last

What an id of an interned string denotes, while strings are interned and lists of earlier runs are
loaded.

* interning only adds ids (`intern_ok`);
* loading a list gives its strings the first ids, where they stay, and closes up the strings that
  are left over behind them (`texts_load`);
* **an id behind the list that is loaded keeps its string exactly when the list holds only strings
  of smaller ids** (`text?_load_iff`).
-/

namespace CodeVault.StringTable

variable {table after : StringTable} {strings : List CText}

/-! ## 1. The texts of a table -/

@[simp] theorem length_texts (table : StringTable) : table.texts.length = table.size := by
  simp [texts, size]

theorem text?_eq (table : StringTable) (i : Nat) : table.text? i = table.texts[i]? := by
  simp [text?, texts]

theorem text?_of_append {more : List CText} {i : Nat} (h : after.texts = table.texts ++ more)
    (hi : i < table.size) : after.text? i = table.text? i := by
  rw [text?_eq, text?_eq, h, List.getElem?_append_left (by rwa [length_texts])]

/-- The number of ids stays within its bound, what came from earlier runs is among them, and no two
    of the others have the same string. -/
structure Sound (table : StringTable) : Prop where
  size_le : table.size ≤ maxStrings
  pinned_le : table.pinned ≤ table.size
  nodup : (table.texts.drop table.pinned).Nodup

theorem sound_empty (placement : Nat → Address) : (empty placement).Sound :=
  ⟨Nat.zero_le _, Nat.le_refl _, .nil⟩

/-- An id that is found for an address is in use. -/
theorem lt_size_of_indexOfAddress? {addr : Address} {index : Nat}
    (h : table.indexOfAddress? addr = some index) : index < table.size := by
  unfold indexOfAddress? at h
  split at h
  · rename_i found hfound
    cases h
    exact (Array.findIdx?_eq_some_iff_findIdx_eq.1 hfound).1
  · obtain ⟨serial, -, hserial⟩ := Option.bind_eq_some_iff.1 h
    exact (Array.findIdx?_eq_some_iff_findIdx_eq.1 hserial).1

/-! ## 2. Interning -/

@[simp] theorem texts_addAlias (table : StringTable) (pointer : Address) (index : Nat) :
    (table.addAlias pointer index).texts = table.texts := by
  unfold addAlias
  split <;> rfl

@[simp] theorem pinned_addAlias (table : StringTable) (pointer : Address) (index : Nat) :
    (table.addAlias pointer index).pinned = table.pinned := by
  unfold addAlias
  split <;> rfl

@[simp] theorem texts_push (table : StringTable) (text : CText) :
    (table.push text).texts = table.texts ++ [text] := by
  simp [push, texts]

theorem not_mem_of_indexOfText? {text : CText} (h : table.indexOfText? text = none) :
    text ∉ table.texts := by
  intro hmem
  obtain ⟨copy, hcopy, rfl⟩ := List.mem_map.1 hmem
  simpa using Array.findIdx?_eq_none_iff.1 h copy (Array.mem_toList_iff.1 hcopy)

/-- **How a string is interned**: the pointer stands for the string already, or it is made to stand
    for the first copy of the string, or for a new one. -/
theorem intern_outcomes {pointer : Address} {text : CText} {index : Nat}
    (h : table.intern pointer text = .ok (index, after)) :
    (table.indexOfAddress? pointer = some index ∧ table.text? index = some text ∧ after = table) ∨
      (∀ found, table.indexOfAddress? pointer = some found → table.text? found ≠ some text) ∧
        (table.indexOfText? text = some index ∧ after = table.addAlias pointer index ∨
          table.indexOfText? text = none ∧ table.size < maxStrings ∧ index = table.size ∧
            after = (table.push text).addAlias pointer table.size) := by
  unfold intern at h
  split at h
  · rename_i found hfound
    cases h
    obtain ⟨hindex, htext⟩ := Option.filter_eq_some_iff.1 hfound
    exact .inl ⟨hindex, eq_of_beq htext, rfl⟩
  · rename_i hother
    refine .inr ⟨fun found hfound => by
      simpa using Option.filter_eq_none_iff.1 hother found hfound, ?_⟩
    split at h
    · rename_i found hfound
      cases h
      exact .inl ⟨hfound, rfl⟩
    · rename_i hnew
      split at h
      · cases h
      · rename_i hroom
        cases h
        exact .inr ⟨hnew, Nat.lt_of_not_le hroom, rfl, rfl⟩

/-- **Interning adds at most one string, at the end, while there is room for it.** -/
theorem intern_ok {pointer : Address} {text : CText} {index : Nat}
    (h : table.intern pointer text = .ok (index, after)) :
    after.pinned = table.pinned ∧
      (after.texts = table.texts ∨
        after.texts = table.texts ++ [text] ∧ text ∉ table.texts ∧ table.size < maxStrings) := by
  rcases intern_outcomes h with ⟨-, -, rfl⟩ | ⟨-, ⟨-, rfl⟩ | ⟨hnew, hroom, -, rfl⟩⟩
  · exact ⟨rfl, .inl rfl⟩
  · exact ⟨pinned_addAlias .., .inl (texts_addAlias ..)⟩
  · refine ⟨by rw [pinned_addAlias]; rfl, .inr ⟨?_, not_mem_of_indexOfText? hnew, hroom⟩⟩
    rw [texts_addAlias, texts_push]

/-- A string that is new can be added while there is room. -/
theorem Sound.append {text : CText} (hsound : table.Sound) (hpinned : after.pinned = table.pinned)
    (htexts : after.texts = table.texts ++ [text]) (hnew : text ∉ table.texts)
    (hroom : table.size < maxStrings) : after.Sound := by
  have hsize : after.size = table.size + 1 := by
    rw [← length_texts, htexts, List.length_append, length_texts, List.length_singleton]
  have hpinned_le := hsound.pinned_le
  refine ⟨by omega, by omega, ?_⟩
  rw [hpinned, htexts, List.drop_append_of_le_length (by rwa [length_texts])]
  exact List.nodup_append.2 ⟨hsound.nodup, List.nodup_singleton text, fun a ha b hb hab => by
    rw [List.mem_singleton.1 hb] at hab
    exact hnew (hab ▸ List.mem_of_mem_drop ha)⟩

theorem Sound.intern {pointer : Address} {text : CText} {index : Nat} (hsound : table.Sound)
    (h : table.intern pointer text = .ok (index, after)) : after.Sound := by
  obtain ⟨hpinned, htexts | ⟨htexts, hnew, hroom⟩⟩ := intern_ok h
  · have hsize : after.size = table.size := by rw [← length_texts, htexts, length_texts]
    exact ⟨hsize ▸ hsound.size_le, hpinned ▸ hsize ▸ hsound.pinned_le, by
      rw [hpinned, htexts]
      exact hsound.nodup⟩
  · exact hsound.append hpinned htexts hnew hroom

/-! ## 3. Loading -/

/-- What is adopted says what was asked for. -/
theorem texts_adopt (strings : List CText) (spare : List Copy) (next : Nat) :
    (adopt strings spare next).1.map (·.text) = strings := by
  induction strings generalizing spare next with
  | nil => rfl
  | cons text rest ih =>
    unfold adopt
    split
    · rename_i copy hfind
      have htext : copy.text = text :=
        eq_of_beq (List.find?_some (p := fun other : Copy => other.text == text) hfind)
      rw [List.map_cons, htext, ih]
    · rw [List.map_cons, ih]

/-- The first copy with a text is the one that is taken out. -/
theorem texts_erase {spare : List Copy} {text : CText} {copy : Copy}
    (h : spare.find? (·.text == text) = some copy) :
    (spare.erase copy).map (·.text) = (spare.map (·.text)).erase text := by
  obtain ⟨htext, front, back, rfl, hfront⟩ := List.find?_eq_some_iff_append.1 h
  obtain rfl : copy.text = text := eq_of_beq htext
  have hcopy : copy ∉ front := fun hmem => by simpa using hfront copy hmem
  have hother : copy.text ∉ front.map (·.text) := by
    intro hmem
    obtain ⟨other, hmem, hsame⟩ := List.mem_map.1 hmem
    simpa [hsame] using hfront other hmem
  rw [List.erase_append_right _ hcopy, List.map_append, List.map_append,
    List.erase_append_right _ hother, List.map_cons, List.erase_cons_head, List.erase_cons_head]

/-- **What is left over is what was not asked for.** -/
theorem texts_left (strings : List CText) (spare : List Copy) (next : Nat) :
    (adopt strings spare next).2.1.map (·.text) = (spare.map (·.text)).diff strings := by
  induction strings generalizing spare next with
  | nil => rfl
  | cons text rest ih =>
    unfold adopt
    split
    · rename_i copy hfind
      rw [ih, texts_erase hfind, List.diff_cons]
    · rename_i hfind
      have hnew : text ∉ spare.map (·.text) := by
        intro hmem
        obtain ⟨copy, hcopy, rfl⟩ := List.mem_map.1 hmem
        simpa using List.find?_eq_none.1 hfind copy hcopy
      rw [ih, List.diff_cons, List.erase_of_not_mem hnew]

/-- Everything that loading does to a table. -/
theorem load_ok (h : table.load strings = .ok after) :
    after.pinned = max table.pinned strings.length ∧
      table.conflict? strings = none ∧
      max table.pinned strings.length + (table.size - table.pinned) ≤ maxStrings ∧
      after.copies.toList = table.copies.toList.take table.pinned ++
        (adopt (strings.drop table.pinned) (table.copies.toList.drop table.pinned) table.size).1 ++
        (adopt (strings.drop table.pinned) (table.copies.toList.drop table.pinned)
          table.size).2.1 := by
  by_cases hroom : maxStrings < max table.pinned strings.length + (table.size - table.pinned)
  · simp only [load, hroom, if_true] at h
    cases h
  · cases hconflict : table.conflict? strings with
    | some index =>
      simp only [load, hroom, if_false, hconflict] at h
      cases h
    | none =>
      simp only [load, hroom, if_false, hconflict] at h
      cases h
      exact ⟨rfl, rfl, by omega, rfl⟩

/-- **Loading keeps what was pinned, puts the new strings behind it, and what is left over
    last.** -/
theorem texts_load (h : table.load strings = .ok after) :
    after.texts = table.texts.take table.pinned ++ (strings.drop table.pinned ++
      (table.texts.drop table.pinned).diff (strings.drop table.pinned)) := by
  obtain ⟨-, -, -, hcopies⟩ := load_ok h
  rw [texts, hcopies, List.map_append, List.map_append, texts_adopt, texts_left,
    List.append_assoc, texts, List.map_take, List.map_drop]

/-- The strings that were interned here, as far as they are left over, are behind those that were
    loaded. -/
theorem drop_texts_load (hsound : table.Sound) (h : table.load strings = .ok after) :
    after.texts.drop after.pinned =
      (table.texts.drop table.pinned).diff (strings.drop table.pinned) := by
  have hle := hsound.pinned_le
  have hpinned := (load_ok h).1
  have hfront : (table.texts.take table.pinned ++ strings.drop table.pinned).length =
      after.pinned := by
    rw [List.length_append, List.length_take, List.length_drop, length_texts]
    omega
  rw [texts_load h, ← List.append_assoc, ← hfront, List.drop_left]

theorem Sound.load (hsound : table.Sound) (h : table.load strings = .ok after) : after.Sound := by
  obtain ⟨hpinned, -, hroom, -⟩ := load_ok h
  have hleft :=
    (List.diff_sublist (table.texts.drop table.pinned) (strings.drop table.pinned)).length_le
  have hsize : after.size = table.pinned + (strings.length - table.pinned) +
      ((table.texts.drop table.pinned).diff (strings.drop table.pinned)).length := by
    rw [← length_texts, texts_load h]
    simp only [List.length_append, List.length_take, List.length_drop, length_texts]
    have := hsound.pinned_le
    omega
  rw [List.length_drop, length_texts] at hleft
  refine ⟨by omega, by omega, ?_⟩
  rw [drop_texts_load hsound h]
  exact hsound.nodup.sublist (List.diff_sublist ..)

/-- Loading does not make a table smaller. -/
theorem size_le_load (hsound : table.Sound) (h : table.load strings = .ok after) :
    table.size ≤ after.size := by
  have hleft := length_le_add_diff (table.texts.drop table.pinned) (strings.drop table.pinned)
  have hle := hsound.pinned_le
  rw [← length_texts after, texts_load h]
  simp only [List.length_append, List.length_take, List.length_drop, length_texts] at hleft ⊢
  omega

/-- The strings that were interned here have one id each. -/
theorem Sound.eq_of_text? (hsound : table.Sound) {i j : Nat} {text : CText} (hi : table.pinned ≤ i)
    (hj : table.pinned ≤ j) (htext : table.text? i = some text)
    (htext' : table.text? j = some text) :
    i = j := by
  rw [text?_eq] at htext htext'
  have hlt := (List.getElem?_eq_some_iff.1 htext).1
  have hsame : (table.texts.drop table.pinned)[i - table.pinned]? =
      (table.texts.drop table.pinned)[j - table.pinned]? := by
    rw [List.getElem?_drop, List.getElem?_drop, Nat.add_sub_cancel' hi, Nat.add_sub_cancel' hj,
      htext, htext']
  have hplace : i - table.pinned < (table.texts.drop table.pinned).length := by
    rw [List.length_drop]
    omega
  have := (List.getElem?_inj hplace hsound.nodup).1 hsame
  omega

/-- What is pinned and what is loaded over it agree. -/
theorem pinned_agrees (hsound : table.Sound) (h : table.load strings = .ok after) {i : Nat}
    (hi : i < table.pinned) (hi' : i < strings.length) : table.text? i = strings[i]? := by
  obtain ⟨-, hconflict, -, -⟩ := load_ok h
  have hlt : i < table.texts.length := by
    have := hsound.pinned_le
    rw [length_texts]
    omega
  have hpair : ((table.texts.take table.pinned).zip strings)[i]? =
      some (table.texts[i], strings[i]) := by
    rw [List.getElem?_zip_eq_some]
    simp [hi, hi']
  have hsame := List.findIdx?_eq_none_iff.1 hconflict _ (List.mem_of_getElem? hpair)
  rw [text?_eq, List.getElem?_eq_getElem hlt, List.getElem?_eq_getElem hi']
  simpa using hsame

/-- **What is pinned stays.** -/
theorem text?_load_of_lt_pinned (hsound : table.Sound) (h : table.load strings = .ok after)
    {i : Nat} (hi : i < table.pinned) : after.text? i = table.text? i := by
  have hlt : i < (table.texts.take table.pinned).length := by
    have := hsound.pinned_le
    rw [List.length_take, length_texts]
    omega
  rw [text?_eq, text?_eq, texts_load h, List.getElem?_append_left hlt, List.getElem?_take_of_lt hi]

/-- An id behind what was pinned before denotes what was loaded there, or something that is left
    over. -/
theorem text?_load_of_ge_pinned (hsound : table.Sound) (h : table.load strings = .ok after)
    {i : Nat} (hi : table.pinned ≤ i) :
    after.text? i = (strings.drop table.pinned ++ (table.texts.drop table.pinned).diff
      (strings.drop table.pinned))[i - table.pinned]? := by
  have hkept : (table.texts.take table.pinned).length = table.pinned := by
    rw [List.length_take, length_texts, Nat.min_eq_left hsound.pinned_le]
  rw [text?_eq, texts_load h, List.getElem?_append_right (by omega), hkept]

/-- **The strings that were loaded have the first ids.** -/
theorem text?_load (hsound : table.Sound) (h : table.load strings = .ok after) {i : Nat}
    (hi : i < strings.length) : after.text? i = strings[i]? := by
  rcases Nat.lt_or_ge i table.pinned with hlt | hge
  · rw [text?_load_of_lt_pinned hsound h hlt, pinned_agrees hsound h hlt hi]
  · rw [text?_load_of_ge_pinned hsound h hge,
      List.getElem?_append_left (by rw [List.length_drop]; omega), List.getElem?_drop]
    congr 1
    omega

/-! ## 4. Ids behind a list -/

/-- **What is left over only moves to greater ids.** -/
theorem exists_le_of_text?_load (hsound : table.Sound) (h : table.load strings = .ok after)
    {i : Nat} {text : CText} (hi : after.pinned ≤ i) (htext : after.text? i = some text) :
    ∃ earlier ≤ i, table.pinned ≤ earlier ∧ table.text? earlier = some text := by
  have hpinned := (load_ok h).1
  rw [text?_load_of_ge_pinned hsound h (by omega),
    List.getElem?_append_right (by rw [List.length_drop]; omega)] at htext
  obtain ⟨place, hle, hplace⟩ := exists_getElem?_of_diff htext
  rw [List.length_drop] at hle
  refine ⟨table.pinned + place, by omega, Nat.le_add_right _ _, ?_⟩
  rwa [List.getElem?_drop, ← text?_eq] at hplace

/-- A list starts with what is pinned, as far as it goes. -/
theorem take_strings (hsound : table.Sound) (h : table.load strings = .ok after) {i : Nat}
    (hi : i ≤ table.pinned) (hi' : i ≤ strings.length) : strings.take i = table.texts.take i := by
  refine List.ext_getElem? fun j => ?_
  rcases Nat.lt_or_ge j i with hlt | hge
  · rw [List.getElem?_take_of_lt hlt, List.getElem?_take_of_lt hlt, ← text?_eq,
      pinned_agrees hsound h (by omega) (by omega)]
  · rw [List.getElem?_eq_none (by rw [List.length_take]; omega),
      List.getElem?_eq_none (by rw [List.length_take]; omega)]

/-- The strings of the first ids: those that are pinned, and others. -/
theorem take_texts {i : Nat} (hi : table.pinned ≤ i) :
    table.texts.take i = table.texts.take table.pinned ++
      (table.texts.drop table.pinned).take (i - table.pinned) := by
  rw [← List.take_add, Nat.add_sub_cancel' hi]

/-- A list holds only strings of smaller ids if what is new in it does. -/
theorem subperm_take_iff (hsound : table.Sound) (h : table.load strings = .ok after) {i : Nat}
    (hi : table.pinned ≤ i) :
    strings.Subperm (table.texts.take i) ↔
      (strings.drop table.pinned).Subperm
        ((table.texts.drop table.pinned).take (i - table.pinned)) := by
  rcases Nat.le_total strings.length table.pinned with hle | hge
  · have hall : strings = table.texts.take strings.length := by
      rw [← take_strings hsound h hle (Nat.le_refl _), List.take_length]
    rw [List.drop_eq_nil_of_le hle]
    refine iff_of_true ?_ List.nil_subperm
    rw [hall]
    exact (List.take_prefix_take_left (by omega)).sublist.subperm
  · have hparts : strings = table.texts.take table.pinned ++ strings.drop table.pinned := by
      rw [← take_strings hsound h (Nat.le_refl _) hge, List.take_append_drop]
    rw [take_texts hi]
    conv_lhs => rw [hparts]
    exact List.subperm_append_left _

/-- **An id behind the list that is loaded keeps its string exactly when the list holds only strings
    of smaller ids**, each of them at most as often as these. -/
theorem text?_load_iff (hsound : table.Sound) (h : table.load strings = .ok after) {i : Nat}
    (hi : i < table.size) (hshort : strings.length ≤ i) :
    after.text? i = table.text? i ↔ strings.Subperm (table.texts.take i) := by
  rcases Nat.lt_or_ge i table.pinned with hlt | hge
  · have hall : strings = table.texts.take strings.length := by
      rw [← take_strings hsound h (by omega) (Nat.le_refl _), List.take_length]
    refine iff_of_true (text?_load_of_lt_pinned hsound h hlt) ?_
    rw [hall]
    exact (List.take_prefix_take_left (by omega)).sublist.subperm
  · have hlt : i - table.pinned < (table.texts.drop table.pinned).length := by
      rw [List.length_drop, length_texts]
      omega
    have hcount : (strings.drop table.pinned).length ≤ i - table.pinned := by
      rw [List.length_drop]
      omega
    rw [subperm_take_iff hsound h hge, ← getElem?_diff_iff hsound.nodup hlt hcount,
      text?_load_of_ge_pinned hsound h hge, List.getElem?_append_right hcount, text?_eq,
      List.getElem?_drop, Nat.add_sub_cancel' hge]

/-- **Then the smaller ids have the same strings, in some order.** -/
theorem take_texts_perm (hsound : table.Sound) (h : table.load strings = .ok after) {i : Nat}
    (hi : i < table.size) (hshort : strings.length ≤ i)
    (hsmaller : strings.Subperm (table.texts.take i)) :
    (after.texts.take i).Perm (table.texts.take i) := by
  have hle := hsound.pinned_le
  have hkept : (table.texts.take table.pinned).length = table.pinned := by
    rw [List.length_take, length_texts, Nat.min_eq_left hle]
  rcases Nat.lt_or_ge i table.pinned with hlt | hge
  · rw [texts_load h, List.take_append_of_le_length (by omega), List.take_take,
      Nat.min_eq_left (Nat.le_of_lt hlt)]
  · have hlength : i - table.pinned ≤ (table.texts.drop table.pinned).length := by
      rw [List.length_drop, length_texts]
      omega
    have hcount : (strings.drop table.pinned).length ≤ i - table.pinned := by
      rw [List.length_drop]
      omega
    rw [texts_load h, take_texts hge, List.take_append, hkept, List.take_of_length_le (by omega),
      List.take_append, List.take_of_length_le hcount]
    exact (append_take_diff_perm hlength ((subperm_take_iff hsound h hge).1 hsmaller)).append_left _

/-- Lists that leave an id with its string: those that reach it have the string there; and if none
    does, they hold only strings of smaller ids. -/
def KeptBy (table : StringTable) (lists : List (List CText)) (i : Nat) : Prop :=
  (∀ strings ∈ lists, i < strings.length → strings[i]? = table.text? i) ∧
    ((∀ strings ∈ lists, strings.length ≤ i) →
      ∀ strings ∈ lists, strings.Subperm (table.texts.take i))

end CodeVault.StringTable
