import CodeVault.Proofs.Symbol.Interning

/-!
# What loading strings keeps

The strings of an earlier run take the first ids, and what was interned here moves behind them.

* what is left over of the local copies are those whose strings are not loaded, in their order
  (`left_adopt`);
* as long as the host puts copies apart, the address of a copy leads back to its id
  (`indexOfAddress?_of_copy`), so that **a table that extends another carries its copies**
  (`Extends.carries`);
* loading the same strings again changes nothing (`load_again`);
* **loading keeps every meaning** (`load_keeps`), for every process and every copy that it ever
  made.
-/

namespace CodeVault

namespace StringTable

variable {table after before : StringTable} {strings : List CText}

/-! ## 1. Local copies -/

/-- **What is left over are the copies whose strings are not asked for**, in their order. -/
theorem left_adopt (strings : List CText) {spare : List Copy} (hnodup : (spare.map (·.text)).Nodup)
    (next : Nat) :
    (adopt strings spare next).2.1 = spare.filter (·.text ∉ strings) := by
  induction strings generalizing spare next with
  | nil => simp [adopt]
  | cons text rest ih =>
    unfold adopt
    split
    · rename_i copy hfind
      have hmem := List.mem_of_find?_eq_some hfind
      obtain rfl : copy.text = text :=
        eq_of_beq (List.find?_some (p := fun other : Copy => other.text == text) hfind)
      have hsub : ((spare.erase copy).map (·.text)).Nodup :=
        hnodup.sublist (List.erase_sublist.map _)
      rw [ih hsub, (List.Nodup.of_map _ hnodup).erase_eq_filter, List.filter_filter]
      -- No other copy has the string that the erased one has.
      refine List.filter_congr fun other hother => ?_
      have hsame : other.text = copy.text ↔ other = copy :=
        ⟨fun htext => List.inj_on_of_nodup_map hnodup hother hmem htext, fun heq => heq ▸ rfl⟩
      exact Bool.eq_iff_iff.2 (by simp [hsame, and_comm])
    · rename_i hfind
      rw [ih hnodup]
      refine List.filter_congr fun other hother => ?_
      have hne : other.text ≠ text :=
        fun heq => List.find?_eq_none.1 hfind other hother (beq_iff_eq.2 heq)
      simp [hne]

/-- Ids that were pinned keep their copy. -/
theorem getElem?_copies_load (hsound : table.Sound) (h : table.load strings = .ok after) {i : Nat}
    (hi : i < table.pinned) : after.copies[i]? = table.copies[i]? := by
  have hlt : i < (table.copies.toList.take table.pinned).length := by
    have hle : table.pinned ≤ table.copies.size := hsound.pinned_le
    rw [List.length_take, Array.length_toList]
    omega
  rw [← Array.getElem?_toList, (load_ok h).2.2.2, List.append_assoc, List.getElem?_append_left hlt,
    List.getElem?_take_of_lt hi, Array.getElem?_toList]

/-- **Behind the pinned ids are the local copies whose strings were not loaded**, in their order. -/
theorem drop_copies_load (hsound : table.Sound) (h : table.load strings = .ok after) :
    after.copies.toList.drop after.pinned =
      (table.copies.toList.drop table.pinned).filter (·.text ∉ strings.drop table.pinned) := by
  obtain ⟨hpinned, -, -, hcopies⟩ := load_ok h
  have hnodup : ((table.copies.toList.drop table.pinned).map (·.text)).Nodup := by
    rw [List.map_drop]
    exact hsound.nodup
  have hadopted := congrArg List.length
    (texts_adopt (strings.drop table.pinned) (table.copies.toList.drop table.pinned) table.size)
  have hfront : (table.copies.toList.take table.pinned ++ (adopt (strings.drop table.pinned)
      (table.copies.toList.drop table.pinned) table.size).1).length = after.pinned := by
    have hle : table.pinned ≤ table.copies.size := hsound.pinned_le
    rw [List.length_map, List.length_drop] at hadopted
    rw [List.length_append, List.length_take, Array.length_toList, hadopted]
    omega
  rw [hcopies, ← hfront, List.drop_left, left_adopt _ hnodup]

/-- No string is lost. -/
theorem mem_texts_of_extends (hextends : Extends table after) {text : CText}
    (h : text ∈ table.texts) :
    text ∈ after.texts := by
  obtain ⟨copy, hmem, rfl⟩ := List.mem_map.1 h
  exact List.mem_map_of_mem (Array.mem_toList_iff.2 (hextends.mem (Array.mem_toList_iff.1 hmem)))

/-- A list that agrees with what is pinned has no conflict. -/
theorem conflict?_eq_none
    (h : ∀ i, i < table.pinned → i < strings.length → table.text? i = strings[i]?) :
    table.conflict? strings = none := by
  rw [conflict?, List.findIdx?_eq_none_iff]
  intro pair hmem
  obtain ⟨i, hi⟩ := List.mem_iff_getElem?.1 hmem
  obtain ⟨hfirst, hsecond⟩ := List.getElem?_zip_eq_some.1 hi
  rw [List.getElem?_take] at hfirst
  split at hfirst
  · rename_i hlt
    have hsame := h i hlt (List.getElem?_eq_some_iff.1 hsecond).1
    rw [text?_eq, hfirst, hsecond] at hsame
    simp [Option.some.inj hsame]
  · cases hfirst

/-- **Loading the same strings again changes nothing.** -/
theorem load_again (hsound : table.Sound) (h : table.load strings = .ok after) :
    after.load strings = .ok after := by
  have hafter := hsound.load h
  have hpinned := (load_ok h).1
  have hlength : max after.pinned strings.length = after.pinned := by omega
  have hroom : ¬ maxStrings < after.pinned + (after.size - after.pinned) := by
    have := hafter.pinned_le
    have := hafter.size_le
    omega
  have hagrees : after.conflict? strings = none :=
    conflict?_eq_none fun i _ hi => text?_load hsound h hi
  have hnew : strings.drop after.pinned = [] := List.drop_eq_nil_of_le (by omega)
  unfold load
  simp only [hlength, hroom, if_false, hagrees, hnew, adopt, List.append_nil, List.take_append_drop]

/-! ## 2. Addresses of copies -/

/-- The host puts no two copies at one address, as long as there are no more than there may be. -/
def Apart (placement : Nat → Address) : Prop :=
  ∀ ⦃a b : Nat⦄, a < maxStrings → b < maxStrings → placement a = placement b → a = b

theorem Numbered.serial_lt (h : table.Numbered) {copy : Copy} (hmem : copy ∈ table.copies) :
    copy.serial < table.size :=
  List.mem_range.1 (h.mem_iff.1 (List.mem_map_of_mem (Array.mem_toList_iff.2 hmem)))

/-- **The address of a copy leads back to its id.** -/
theorem indexOfAddress?_of_copy (hnumbered : table.Numbered) (hsize : table.size ≤ maxStrings)
    (hapart : Apart table.placement) {index : Nat} {copy : Copy}
    (hcopy : table.copies[index]? = some copy) :
    table.indexOfAddress? (table.placement copy.serial) = some index := by
  have hmem := Array.mem_of_getElem? hcopy
  obtain ⟨found, hfound⟩ := exists_indexOfCopy? (hasCopyAt_iff.2 ⟨copy, hmem, rfl⟩)
  obtain ⟨hlt, hplaced, -⟩ := Array.findIdx?_eq_some_iff_getElem.1 hfound
  have hserial := hapart (Nat.lt_of_lt_of_le (hnumbered.serial_lt (Array.getElem_mem hlt)) hsize)
    (Nat.lt_of_lt_of_le (hnumbered.serial_lt hmem) hsize) (eq_of_beq hplaced)
  rw [indexOfAddress?, hfound, hnumbered.eq_of_serial (Array.getElem?_eq_getElem hlt) hcopy hserial]

/-- Every copy of a table is in another at its address and with its string, and is found there. -/
def Carries (before after : StringTable) : Prop :=
  ∀ i addr, before.addressOf? i = some addr → ∃ j, after.indexOfAddress? addr = some j ∧
    after.addressOf? j = some addr ∧ after.text? j = before.text? i

/-- **What a table extends it carries.** -/
theorem Extends.carries (h : Extends before after) (hnumbered : after.Numbered)
    (hsize : after.size ≤ maxStrings) (hapart : Apart after.placement) : Carries before after := by
  intro i addr haddr
  obtain ⟨copy, hcopy, rfl⟩ := Option.map_eq_some_iff.1 haddr
  obtain ⟨j, hj⟩ := Array.getElem?_of_mem (h.mem (Array.mem_of_getElem? hcopy))
  have hplace : after.placement copy.serial = before.placement copy.serial := by rw [h.1]
  refine ⟨j, ?_, ?_, ?_⟩
  · rw [← hplace]
    exact indexOfAddress?_of_copy hnumbered hsize hapart hj
  · rw [addressOf?, hj, Option.map_some, hplace]
  · rw [text?, text?, hj, hcopy]

/-! ## 3. What loading keeps -/

/-- What is true of a table after a list was loaded into another. -/
structure Keeps (table : StringTable) (strings : List CText) (after : StringTable) : Prop where
  /-- The list has the first ids. -/
  loaded : ∀ i, i < strings.length → after.text? i = strings[i]?
  /-- Ids that were pinned before keep their string and their copy. -/
  pinned : ∀ i, i < table.pinned →
    after.text? i = table.text? i ∧ after.addressOf? i = table.addressOf? i
  /-- What was pinned is pinned, and so is the list. -/
  count : after.pinned = max table.pinned strings.length
  /-- Behind them are the local copies whose strings are not new in the list, in their order. -/
  locals : after.copies.toList.drop after.pinned =
    (table.copies.toList.drop table.pinned).filter (·.text ∉ strings.drop table.pinned)
  /-- No string is lost. -/
  texts : ∀ text ∈ table.texts, text ∈ after.texts
  /-- There are no more strings than there may be. -/
  bounded : after.size ≤ maxStrings
  /-- Every id has a copy, whose address leads back to the id. -/
  distinct : ∀ i, i < after.size →
    ∃ addr, after.addressOf? i = some addr ∧ after.indexOfAddress? addr = some i
  /-- Loading the list again changes nothing. -/
  again : after.load strings = .ok after

theorem keeps_load (hsound : table.Sound) (hnumbered : table.Numbered)
    (hapart : Apart table.placement) (h : table.load strings = .ok after) :
    table.Keeps strings after where
  loaded _ hi := text?_load hsound h hi
  pinned i hi := by
    refine ⟨text?_load_of_lt_pinned hsound h hi, ?_⟩
    rw [addressOf?, addressOf?, getElem?_copies_load hsound h hi, (kept_load h).1]
  count := (load_ok h).1
  locals := drop_copies_load hsound h
  texts _ hmem := mem_texts_of_extends (extends_load h) hmem
  bounded := (hsound.load h).size_le
  distinct i hi := by
    have hextends := extends_load h
    have hcopy : after.copies[i]? = some after.copies[i] := Array.getElem?_eq_getElem hi
    refine ⟨after.placement after.copies[i].serial, by rw [addressOf?, hcopy, Option.map_some], ?_⟩
    exact indexOfAddress?_of_copy (hnumbered.extends hextends) (hsound.load h).size_le
      (hextends.1 ▸ hapart) hcopy
  again := load_again hsound h

end StringTable

namespace SymbolTable

open StringTable

/-! ## 4. In every process -/

/-- **Whatever happens in a process, its copies stay**, and new ones are numbered on. -/
theorem extends_apply (symbols : SymbolTable) (event : SymbolEvent) :
    Extends symbols.strings (symbols.apply event).strings := by
  cases event with
  | installed installation =>
    rw [install_eq]
    exact .refl _
  | interned pointer text =>
    rcases symbols.apply_interned pointer text with ⟨index, after, hrun, happly⟩ | ⟨-, -, happly⟩
    · rw [happly]
      exact extends_intern hrun
    · rw [happly]
      exact .refl _
  | loaded strings =>
    rcases symbols.apply_loaded strings with ⟨after, hrun, happly⟩ | ⟨-, happly⟩
    · rw [happly]
      exact extends_load hrun
    · rw [happly]
      exact .refl _

theorem extends_after (symbols : SymbolTable) (events : List SymbolEvent) :
    Extends symbols.strings (symbols.after events).strings := by
  induction events generalizing symbols with
  | nil => exact .refl _
  | cons event events ih => exact (symbols.extends_apply event).trans (ih _)

/-- **Loading keeps every meaning.** In every process whose host puts copies apart, whatever was
    interned and loaded: a list that is refused leaves everything as it was. A list that is not has
    the first ids; what was pinned before stays as it was; behind both are the local strings that
    are not new in the list, in their order and with their copies; every copy that the process ever
    had is at its address with its string, and is found there; and loading the list again changes
    nothing. -/
theorem load_keeps (anchor : Anchor) (placement : Nat → Address) (hapart : Apart placement)
    (earlier later : List SymbolEvent) (strings : List CText) :
    let once := (empty anchor placement).after earlier
    let symbols := once.after later
    (∀ cause, symbols.strings.load strings = .error cause →
      symbols.apply (.loaded strings) = symbols) ∧
    ∀ after, symbols.strings.load strings = .ok after →
      symbols.apply (.loaded strings) = { symbols with strings := after } ∧
      symbols.strings.Keeps strings after ∧ once.strings.Carries after := by
  intro once symbols
  have hall : symbols = (empty anchor placement).after (earlier ++ later) := (after_append ..).symm
  have hsound : symbols.strings.Sound := hall ▸ sound_after anchor placement _
  have hnumbered : symbols.strings.Numbered := hall ▸ numbered_after anchor placement _
  have hplaced : Apart symbols.strings.placement := by
    rw [hall, (extends_after (empty anchor placement) _).1]
    exact hapart
  refine ⟨fun cause hrun => ?_,
    fun after hrun => ⟨?_, keeps_load hsound hnumbered hplaced hrun, ?_⟩⟩
  · simp only [apply, loadStrings, hrun]
  · simp only [apply, loadStrings, hrun]
  · have hextends := (once.extends_after later).trans (extends_load hrun)
    exact hextends.carries (hnumbered.extends (extends_load hrun)) (hsound.load hrun).size_le
      ((kept_load hrun).1 ▸ hplaced)

/-! An example: of two strings that were interned, one is loaded behind a new one. -/

theorem apart_inLine : Apart inLine := by
  have hplace : ∀ serial, serial < maxStrings → (inLine serial).toNat = 20480 + 64 * serial :=
    fun serial hlt => by
    refine UInt64.toNat_ofNat_of_lt'
      (Nat.lt_trans ?_ (by decide : 20480 + 64 * maxStrings < UInt64.size))
    omega
  intro a b ha hb hsame
  have hnumbers := congrArg UInt64.toNat hsame
  rw [hplace a ha, hplace b hb] at hnumbers
  omega

/-- A string without letters, and the digits. -/
def listed : List CText := [⟨#[], by simp⟩, digits]

theorem load_keeps_listed :
    let once := (empty .none inLine).after [.interned 8192 letters]
    let symbols := once.after [.interned 8192 digits]
    Apart inLine ∧ ∃ after, symbols.strings.load listed = .ok after ∧
      after.texts = listed ++ [letters] ∧
      symbols.strings.Keeps listed after ∧ once.strings.Carries after := by
  intro once symbols
  obtain ⟨after, hafter, htexts⟩ : ∃ after, (symbols.strings.load listed).toOption = some after ∧
      after.texts = listed ++ [letters] := by
    have hload : (symbols.strings.load listed).toOption.map texts = some (listed ++ [letters]) := by
      decide +kernel
    exact Option.map_eq_some_iff.1 hload
  have hrun := toOption_eq_some.1 hafter
  obtain ⟨-, hkeeps, hcarries⟩ := (load_keeps .none inLine apart_inLine _ _ listed).2 after hrun
  exact ⟨apart_inLine, after, hrun, htexts, hkeeps, hcarries⟩

end SymbolTable

end CodeVault
