import CodeVault.Proofs.Symbol.Loading
import CodeVault.Symbol.SlotTable
import Mathlib.Data.List.Induction

/-!
# The table of strings with its maps

`SlotTable` keeps copies in slots and finds them through maps; `StringTable` keeps them in the order
of their ids and searches them. The second is what the first means.

* **`Represents` says which table with maps stands for which table**: a slot is a serial number, a
  map has what a search finds, and all places that are named are there (`Represents.inRange`);
* what is looked up is the same on both sides (`Represents.indexOfAddress?_eq`), interning answers
  the same and keeps the relation (`Represents.intern`), and so does loading (`Represents.load`),
  which numbers all slots again;
* **so in every process both answer the same, whatever was interned and loaded** (`slots_answer`).
-/

namespace CodeVault

open StringTable

namespace SlotTable

section Alike

variable {table next : SlotTable} {plain after : StringTable} {listed : List Copy}
  {strings : List CText}

/-! ## 1. The ids of slots -/

/-- The ids of a table are the places of these copies: every slot has the id of the copy with its
    number, and every text the first one that has it. -/
structure Numbers (table : SlotTable) (listed : List Copy) : Prop where
  ids : table.ids.toList = listed.map (·.serial)
  copies : ∀ copy ∈ listed, table.copies[copy.serial]? = some copy.text
  slots : table.slotIds.size = table.copies.size
  idOf? : ∀ slot, table.idOf? slot = listed.findIdx? (·.serial == slot)
  byText : ∀ text, table.byText[text]? = listed.findIdx? (·.text == text)

theorem Numbers.size (h : table.Numbers listed) : table.size = listed.length := by
  rw [SlotTable.size, ← Array.length_toList, h.ids, List.length_map]

theorem Numbers.slot_lt (h : table.Numbers listed) {copy : Copy} (hmem : copy ∈ listed) :
    copy.serial < table.copies.size :=
  (Array.getElem?_eq_some_iff.1 (h.copies copy hmem)).1

theorem Numbers.getElem?_ids (h : table.Numbers listed) (i : Nat) :
    table.ids[i]? = (listed[i]?).map (·.serial) := by
  rw [← Array.getElem?_toList, h.ids, List.getElem?_map]

/-- No slot has an id in the table without numbers. -/
theorem numbers_unnumbered (hslots : table.slotIds.size = table.copies.size) :
    table.unnumbered.Numbers [] where
  ids := rfl
  copies _ hmem := nomatch hmem
  slots := by simpa [unnumbered] using hslots
  idOf? slot := by
    simp only [SlotTable.idOf?, unnumbered, Array.getElem?_map]
    cases table.slotIds[slot]? <;> rfl
  byText text := Std.HashMap.getElem?_empty

/-- A slot whose number is not among those of a list has no id in it. -/
theorem findIdx?_serial_eq_none {slot : Nat} :
    listed.findIdx? (·.serial == slot) = none ↔ slot ∉ listed.map (·.serial) := by
  simp [List.findIdx?_eq_none_iff]

/-- **A slot without an id gets the next one.** -/
theorem Numbers.assign (h : table.Numbers listed) (copy : Copy)
    (hcopy : table.copies[copy.serial]? = some copy.text)
    (hfree : copy.serial ∉ listed.map (·.serial)) :
    (table.assign copy.serial).Numbers (listed ++ [copy]) where
  ids := by simp [SlotTable.assign, h.ids]
  copies other hmem := by
    rcases List.mem_append.1 hmem with hmem | hmem
    · exact h.copies other hmem
    · obtain rfl := List.mem_singleton.1 hmem
      exact hcopy
  slots := by simpa [SlotTable.assign] using h.slots
  idOf? slot := by
    have hlt : copy.serial < table.slotIds.size := h.slots ▸ (Array.getElem?_eq_some_iff.1 hcopy).1
    rw [List.findIdx?_append, ← h.idOf? slot]
    by_cases hsame : copy.serial = slot
    · subst hsame
      have hnone : table.idOf? copy.serial = none :=
        (h.idOf? _).trans (findIdx?_serial_eq_none.2 hfree)
      rw [hnone]
      simp [SlotTable.idOf?, SlotTable.assign, hlt, h.size]
    · simp [SlotTable.idOf?, SlotTable.assign, Array.getElem?_setIfInBounds_ne hsame, hsame]
  byText text := by
    rw [List.findIdx?_append, ← h.byText text]
    simp only [SlotTable.assign, hcopy, Std.HashMap.getElem?_insertIfNew]
    by_cases hsame : copy.text = text
    · subst hsame
      cases hfound : table.byText[copy.text]? <;>
        simp [hfound, h.size, Std.HashMap.mem_iff_isSome_getElem?]
    · have hother : (copy.text == text) = false := beq_false_of_ne hsame
      simp only [List.findIdx?_singleton, hother, Bool.false_eq_true, false_and, if_false,
        Option.map_none, Option.or_none]

/-- Copies stay in their slots. -/
theorem getElem?_pushCopy {slot : Nat} {text : CText} (h : table.copies[slot]? = some text)
    (added : CText) :
    (table.pushCopy added).copies[slot]? = some text := by
  obtain ⟨hlt, hsame⟩ := Array.getElem?_eq_some_iff.1 h
  rw [SlotTable.pushCopy, Array.getElem?_push_lt hlt, hsame]

/-- A new copy has no id. -/
theorem Numbers.pushCopy (h : table.Numbers listed) (text : CText) :
    (table.pushCopy text).Numbers listed where
  ids := h.ids
  copies copy hmem := getElem?_pushCopy (h.copies copy hmem) text
  slots := by simp [SlotTable.pushCopy, h.slots]
  idOf? slot := by
    rw [← h.idOf? slot]
    simp only [SlotTable.idOf?, SlotTable.pushCopy, Array.getElem?_push]
    split
    · rename_i heq
      rw [heq, Array.getElem?_eq_none (Nat.le_refl _)]
      rfl
    · rfl
  byText := h.byText

/-! ## 2. What a table with maps stands for -/

/-- The map of copies has the slots of all copies, by their addresses. -/
def Placed (table : SlotTable) : Prop :=
  ∀ addr slot, table.byCopy[addr]? = some slot ↔
    slot < table.copies.size ∧ table.placement slot = addr

/-- **A new copy is found where the host puts it**, if no other one is there. -/
theorem Placed.pushCopy (h : table.Placed) (hapart : Apart table.placement)
    (hroom : table.copies.size < maxStrings) (text : CText) : (table.pushCopy text).Placed := by
  intro addr slot
  simp only [SlotTable.pushCopy, Std.HashMap.getElem?_insert, Array.size_push, beq_iff_eq]
  split
  · rename_i heq
    subst heq
    refine ⟨fun hslot => ?_, fun ⟨hlt, hsame⟩ => ?_⟩
    · obtain rfl := Option.some.inj hslot
      exact ⟨Nat.lt_succ_self _, rfl⟩
    · rw [hapart (Nat.lt_of_lt_of_le hlt hroom) hroom hsame]
  · rename_i hne
    rw [h addr slot]
    constructor
    · exact fun ⟨hlt, hsame⟩ => ⟨Nat.lt_succ_of_lt hlt, hsame⟩
    · rintro ⟨hlt, rfl⟩
      refine ⟨Nat.lt_of_le_of_ne (Nat.le_of_lt_succ hlt) ?_, rfl⟩
      rintro rfl
      exact hne rfl

/-- **A table with maps stands for a table**: its ids are those of the copies there, and its maps
    lead to the copies and the pointers there. -/
structure Represents (table : SlotTable) (plain : StringTable) : Prop where
  numbers : table.Numbers plain.copies.toList
  placed : table.Placed
  placement : table.placement = plain.placement
  slots : table.copies.size = plain.size
  aliases : ∀ addr : Address, table.aliases[addr]? = plain.aliases.lookup addr
  known : ∀ (addr : Address) (slot : Nat), table.aliases[addr]? = some slot →
    slot < table.copies.size
  pinned : table.pinned = plain.pinned
  sound : plain.Sound
  numbered : plain.Numbered

/-- The tables without strings. -/
theorem represents_empty (placement : Nat → Address) :
    (SlotTable.empty placement).Represents (StringTable.empty placement) where
  numbers :=
    ⟨rfl, fun _ hmem => (nomatch hmem), rfl, fun _ => rfl, fun _ => Std.HashMap.getElem?_empty⟩
  placed addr slot := by simp [SlotTable.empty]
  placement := rfl
  slots := rfl
  aliases addr := Std.HashMap.getElem?_empty
  known addr slot h := by simp [SlotTable.empty] at h
  pinned := rfl
  sound := sound_empty placement
  numbered := numbered_empty placement

/-- All places that a table names are there: slots of ids, of addresses and of pointers, and ids of
    slots and of texts. -/
structure InRange (table : SlotTable) : Prop where
  slots : table.slotIds.size = table.copies.size
  ids : ∀ index slot : Nat, table.ids[index]? = some slot → slot < table.copies.size
  slotOf? : ∀ addr slot, table.slotOf? addr = some slot → slot < table.copies.size
  idOf? : ∀ slot index, table.idOf? slot = some index → index < table.size
  byText : ∀ (text : CText) (index : Nat), table.byText[text]? = some index → index < table.size
  pinned : table.pinned ≤ table.size

/-- **No look-up goes astray in a table that stands for another.** -/
theorem Represents.inRange (h : table.Represents plain) : table.InRange where
  slots := h.numbers.slots
  ids index slot hslot := by
    rw [h.numbers.getElem?_ids] at hslot
    obtain ⟨copy, hcopy, rfl⟩ := Option.map_eq_some_iff.1 hslot
    exact h.numbers.slot_lt (List.mem_of_getElem? hcopy)
  slotOf? addr slot hslot := by
    rcases Option.or_eq_some_iff.1 hslot with hcopy | ⟨-, halias⟩
    · exact ((h.placed addr slot).1 hcopy).1
    · exact h.known addr slot halias
  idOf? slot index hindex := by
    rw [h.numbers.idOf?] at hindex
    rw [h.numbers.size]
    exact (List.findIdx?_eq_some_iff_getElem.1 hindex).1
  byText text index hindex := by
    rw [h.numbers.byText] at hindex
    rw [h.numbers.size]
    exact (List.findIdx?_eq_some_iff_getElem.1 hindex).1
  pinned := by
    rw [h.pinned, h.numbers.size, Array.length_toList]
    exact h.sound.pinned_le

/-! ## 3. Looking up -/

theorem Represents.size_eq (h : table.Represents plain) : table.size = plain.size :=
  h.numbers.size.trans Array.length_toList

theorem Represents.text?_eq (h : table.Represents plain) (index : Nat) :
    table.text? index = plain.text? index := by
  rw [SlotTable.text?, h.numbers.getElem?_ids, Array.getElem?_toList, StringTable.text?]
  cases hcopy : plain.copies[index]? with
  | none => rfl
  | some copy => exact h.numbers.copies copy (Array.mem_toList_iff.2 (Array.mem_of_getElem? hcopy))

theorem Represents.texts_eq (h : table.Represents plain) : table.texts = plain.texts := by
  rw [SlotTable.texts, h.numbers.ids, List.filterMap_map, StringTable.texts,
    ← List.filterMap_eq_map]
  exact List.filterMap_congr fun copy hmem => h.numbers.copies copy hmem

theorem Represents.addressOf?_eq (h : table.Represents plain) (index : Nat) :
    table.addressOf? index = plain.addressOf? index := by
  rw [SlotTable.addressOf?, h.numbers.getElem?_ids, Array.getElem?_toList, Option.map_map,
    h.placement]
  rfl

/-- The id of a slot is that of the copy with its number. -/
theorem Represents.idOf?_eq (h : table.Represents plain) (slot : Nat) :
    table.idOf? slot = plain.indexOfSerial? slot := by
  rw [h.numbers.idOf?, findIdx?_toList]
  rfl

theorem Represents.byText_eq (h : table.Represents plain) (text : CText) :
    table.byText[text]? = plain.indexOfText? text := by
  rw [h.numbers.byText, findIdx?_toList]
  rfl

/-- Every slot has an id. -/
theorem Represents.exists_idOf? (h : table.Represents plain) {slot : Nat}
    (hlt : slot < table.copies.size) :
    ∃ index copy, table.idOf? slot = some index ∧ plain.copies[index]? = some copy ∧
      copy.serial = slot := by
  have hmem : slot ∈ plain.copies.toList.map (·.serial) :=
    h.numbered.mem_iff.2 (List.mem_range.2 (h.slots ▸ hlt))
  obtain ⟨copy, hcopy, rfl⟩ := List.mem_map.1 hmem
  obtain ⟨index, hindex, hat⟩ := h.numbered.indexOfSerial? (Array.mem_toList_iff.1 hcopy)
  exact ⟨index, copy, (h.idOf?_eq _).trans hindex, hat, rfl⟩

/-- **An address leads to the same id through the maps as by a search of the copies.** -/
theorem Represents.indexOfAddress?_eq (h : table.Represents plain) (addr : Address) :
    table.indexOfAddress? addr = plain.indexOfAddress? addr := by
  rw [SlotTable.indexOfAddress?, StringTable.indexOfAddress?, SlotTable.slotOf?]
  cases hcopy : table.byCopy[addr]? with
  | some slot =>
    obtain ⟨hlt, hplaced⟩ := (h.placed addr slot).1 hcopy
    obtain ⟨index, copy, hindex, hat, rfl⟩ := h.exists_idOf? hlt
    -- The copies at this address are those with this number: there is one.
    have hsame : plain.indexOfCopy? addr = plain.indexOfSerial? copy.serial := by
      rw [indexOfCopy?, StringTable.indexOfSerial?, ← findIdx?_toList, ← findIdx?_toList]
      refine findIdx?_congr fun other hmem => ?_
      rw [← h.placement, Bool.eq_iff_iff, beq_iff_eq, beq_iff_eq]
      refine ⟨fun hthere => ?_, fun hserial => hserial ▸ hplaced⟩
      have hother := (h.placed addr other.serial).2 ⟨h.numbers.slot_lt hmem, hthere⟩
      exact Option.some.inj (hother.symm.trans hcopy)
    rw [hsame, ← h.idOf?_eq]
    simp only [Option.some_or, Option.bind_some, hindex]
  | none =>
    have hnone : plain.indexOfCopy? addr = none := by
      refine indexOfCopy?_eq_none fun hthere => ?_
      obtain ⟨copy, hmem, hplaced⟩ := hasCopyAt_iff.1 hthere
      have hfound := (h.placed addr copy.serial).2
        ⟨h.numbers.slot_lt (Array.mem_toList_iff.2 hmem), h.placement ▸ hplaced⟩
      cases hfound.symm.trans hcopy
    rw [hnone, Option.none_or, h.aliases]
    exact Option.bind_congr fun slot _ => h.idOf?_eq slot

/-! ## 4. Interning -/

/-- Both tables refuse, for one cause, or both answer, and their answers are related. -/
inductive Agrees {α β : Type} (related : α → β → Prop) :
    Except SymbolError α → Except SymbolError β → Prop
  | refused (cause : SymbolError) : Agrees related (.error cause) (.error cause)
  | answered {a : α} {b : β} (h : related a b) : Agrees related (.ok a) (.ok b)

/-- What related answers have in common, both tables answer. -/
theorem Agrees.map_eq {α β γ : Type} {related : α → β → Prop} {x : Except SymbolError α}
    {y : Except SymbolError β} (h : Agrees related x y) {f : α → γ} {g : β → γ}
    (hsame : ∀ a b, related a b → f a = g b) : x.map f = y.map g := by
  cases h with
  | refused cause => rfl
  | answered h => exact congrArg Except.ok (hsame _ _ h)

/-- A pointer that leads to a slot is an alias of it. -/
theorem Represents.addAlias (h : table.Represents plain) {index : Nat} {copy : Copy}
    (hcopy : plain.copies[index]? = some copy) (pointer : Address) :
    (table.addAlias pointer copy.serial).Represents (plain.addAlias pointer index) := by
  have hlt := h.numbers.slot_lt (Array.mem_toList_iff.2 (Array.mem_of_getElem? hcopy))
  have hafter : plain.addAlias pointer index =
      { plain with aliases := (pointer, copy.serial) :: plain.aliases } := by
    rw [StringTable.addAlias, hcopy]
  rw [hafter]
  refine ⟨⟨h.numbers.ids, h.numbers.copies, h.numbers.slots, h.numbers.idOf?, h.numbers.byText⟩,
    h.placed, h.placement, h.slots, fun addr => ?_, fun addr slot hslot => ?_, h.pinned,
    ⟨h.sound.size_le, h.sound.pinned_le, h.sound.nodup⟩, h.numbered⟩
  · simp only [SlotTable.addAlias, Std.HashMap.getElem?_insert, List.lookup_cons, h.aliases addr]
    by_cases hsame : pointer = addr
    · subst hsame
      simp
    · rw [beq_false_of_ne hsame, beq_false_of_ne (Ne.symm hsame)]
      rfl
  · simp only [SlotTable.addAlias, Std.HashMap.getElem?_insert] at hslot
    split at hslot
    · exact Option.some.inj hslot ▸ hlt
    · exact h.known addr slot hslot

/-- What a pointer is known for is the string there, if it is the one that is asked for. -/
theorem Represents.known_eq (h : table.Represents plain) (pointer : Address) (text : CText) :
    ((table.slotOf? pointer).filter fun slot => table.copies[slot]? == some text).bind table.idOf? =
      (plain.indexOfAddress? pointer).filter fun index => plain.text? index == some text := by
  rw [← h.indexOfAddress?_eq, SlotTable.indexOfAddress?]
  cases hslot : table.slotOf? pointer with
  | none => rfl
  | some slot =>
    obtain ⟨index, copy, hindex, hat, rfl⟩ := h.exists_idOf? (h.inRange.slotOf? pointer slot hslot)
    have htext : plain.text? index = table.copies[copy.serial]? := by
      rw [StringTable.text?, hat,
        h.numbers.copies copy (Array.mem_toList_iff.2 (Array.mem_of_getElem? hat))]
      rfl
    rw [Option.bind_some, hindex, Option.filter_some, Option.filter_some, htext]
    split
    · exact hindex
    · rfl

/-- A copy of a new string gets the next id. -/
theorem Represents.push (h : table.Represents plain) (hapart : Apart plain.placement) {text : CText}
    (hnew : text ∉ plain.texts) (hroom : plain.size < maxStrings) :
    ((table.pushCopy text).assign table.copies.size).Represents (plain.push text) := by
  have hat : (table.pushCopy text).copies[table.copies.size]? = some text :=
    Array.getElem?_push_size
  have hfree : plain.size ∉ plain.copies.toList.map (·.serial) := by
    rw [h.numbered.mem_iff]
    simp
  rw [h.slots] at hat ⊢
  refine ⟨?_, h.placed.pushCopy (h.placement ▸ hapart) (h.slots ▸ hroom) text, h.placement, ?_,
    h.aliases, fun addr slot hslot => ?_, h.pinned,
    h.sound.append rfl (texts_push plain text) hnew hroom,
    h.numbered.extends ⟨rfl, [⟨text, plain.size⟩], ?_, rfl⟩⟩
  · rw [StringTable.push, Array.toList_push]
    exact (h.numbers.pushCopy text).assign ⟨text, plain.size⟩ hat hfree
  · simp [SlotTable.assign, SlotTable.pushCopy, StringTable.push, StringTable.size, h.slots]
  · have hlt := h.known addr slot hslot
    simp only [SlotTable.assign, SlotTable.pushCopy, Array.size_push]
    omega
  · rw [StringTable.push, Array.toList_push]

/-- **Interning answers the same with maps as without, and the tables stay alike.** -/
theorem Represents.intern (h : table.Represents plain) (hapart : Apart plain.placement)
    (pointer : Address) (text : CText) :
    Agrees (fun found kept => found.1 = kept.1 ∧ found.2.Represents kept.2)
      (table.intern pointer text) (plain.intern pointer text) := by
  simp only [SlotTable.intern, StringTable.intern, h.known_eq, h.byText_eq, h.size_eq]
  cases hknown : (plain.indexOfAddress? pointer).filter fun index =>
    plain.text? index == some text with
  | some index => exact .answered ⟨rfl, h⟩
  | none =>
    cases hfound : plain.indexOfText? text with
    | some found =>
      obtain ⟨hlt, -⟩ := Array.findIdx?_eq_some_iff_getElem.1 hfound
      have hat : plain.copies[found]? = some plain.copies[found] := Array.getElem?_eq_getElem hlt
      have hslot : table.ids[found]? = some plain.copies[found].serial := by
        rw [h.numbers.getElem?_ids, Array.getElem?_toList, hat, Option.map_some]
      dsimp only
      rw [hslot, Option.elim_some]
      exact .answered ⟨rfl, h.addAlias hat pointer⟩
    | none =>
      by_cases hfull : maxStrings ≤ plain.size
      · simp only [if_pos hfull]
        exact .refused _
      · simp only [if_neg hfull]
        have hpushed := h.push hapart (not_mem_of_indexOfText? hfound) (Nat.lt_of_not_le hfull)
        have hlast : (plain.push text).copies[plain.size]? = some ⟨text, plain.size⟩ :=
          Array.getElem?_push_size
        rw [h.slots] at hpushed ⊢
        exact .answered ⟨rfl, hpushed.addAlias hlast pointer⟩

/-! ## 5. Loading -/

/-- A table whose ids are given out again: these copies have one so far. The copies that there were
    are in their slots, and new ones behind them. -/
structure Renumbers (table next : SlotTable) (listed : List Copy) : Prop where
  numbers : next.Numbers listed
  placed : next.Placed
  placement : next.placement = table.placement
  aliases : next.aliases = table.aliases
  keeps : ∀ (slot : Nat) (text : CText), table.copies[slot]? = some text →
    next.copies[slot]? = some text

/-- A slot gets the next id. -/
theorem Renumbers.assign (h : table.Renumbers next listed) {copy : Copy}
    (hcopy : next.copies[copy.serial]? = some copy.text)
    (hfree : copy.serial ∉ listed.map (·.serial)) :
    table.Renumbers (next.assign copy.serial) (listed ++ [copy]) :=
  ⟨h.numbers.assign copy hcopy hfree, h.placed, h.placement, h.aliases, h.keeps⟩

/-- A new copy gets the next id. -/
theorem Renumbers.push (h : table.Renumbers next listed) (hapart : Apart table.placement)
    (hroom : next.copies.size < maxStrings) (text : CText) :
    table.Renumbers ((next.pushCopy text).assign next.copies.size)
      (listed ++ [⟨text, next.copies.size⟩]) := by
  have hfree : next.copies.size ∉ listed.map (·.serial) := by
    intro hmem
    obtain ⟨copy, hcopy, hsame⟩ := List.mem_map.1 hmem
    exact Nat.lt_irrefl _ (hsame ▸ h.numbers.slot_lt hcopy)
  refine ⟨(h.numbers.pushCopy text).assign ⟨text, _⟩ Array.getElem?_push_size hfree,
    h.placed.pushCopy (h.placement ▸ hapart) hroom text, h.placement, h.aliases,
    fun slot other hslot => ?_⟩
  exact getElem?_pushCopy (h.keeps slot other hslot) text

/-- **The ids that were pinned are given to the slots that had them**, whatever is loaded. -/
theorem Represents.foldl_seat_pinned (h : table.Represents plain) (strings : List CText)
    (spare : Std.HashMap CText Nat) {count : Nat} (hcount : count ≤ plain.pinned) :
    ∃ next, (List.range count).foldl (seat table.ids (min table.pinned strings.length) strings)
        (table.unnumbered, spare) = (next, spare) ∧
      table.Renumbers next (plain.copies.toList.take count) ∧ next.copies = table.copies := by
  induction count with
  | zero =>
    exact ⟨table.unnumbered, rfl,
      ⟨numbers_unnumbered h.numbers.slots, h.placed, rfl, rfl, fun _ _ hslot => hslot⟩, rfl⟩
  | succ count ih =>
    obtain ⟨next, hfold, hrenumbers, hcopies⟩ := ih (Nat.le_of_succ_le hcount)
    have hlt : count < plain.copies.toList.length := by
      rw [Array.length_toList]
      exact Nat.lt_of_lt_of_le hcount h.sound.pinned_le
    obtain ⟨copy, hat⟩ : ∃ copy, plain.copies.toList[count]? = some copy :=
      ⟨_, List.getElem?_eq_getElem hlt⟩
    have htake : plain.copies.toList.take (count + 1) =
        plain.copies.toList.take count ++ [copy] := by
      rw [List.take_add_one, hat, Option.toList_some]
    have hfree : copy.serial ∉ (plain.copies.toList.take count).map (·.serial) := by
      have hnodup : ((plain.copies.toList.take (count + 1)).map (·.serial)).Nodup :=
        (h.numbered.nodup_iff.2 List.nodup_range).sublist ((List.take_sublist _ _).map _)
      rw [htake, List.map_append, List.nodup_append] at hnodup
      exact fun hmem => hnodup.2.2 _ hmem _ (List.mem_singleton.2 rfl) rfl
    have hbefore : table.ids[count]? = some copy.serial := by
      rw [h.numbers.getElem?_ids, hat, Option.map_some]
    -- The position is shared, or it is behind the strings.
    have hnothing : (if count < min table.pinned strings.length then none else strings[count]?) =
        none := by
      split
      · rfl
      · rename_i hout
        rw [h.pinned] at hout
        exact List.getElem?_eq_none (by omega)
    have hcopy : next.copies[copy.serial]? = some copy.text := by
      rw [hcopies]
      exact h.numbers.copies copy (List.mem_of_getElem? hat)
    refine ⟨next.assign copy.serial, ?_, htake ▸ hrenumbers.assign hcopy hfree, hcopies⟩
    rw [List.range_succ, List.foldl_append, hfold, List.foldl_cons, List.foldl_nil]
    simp only [seat, hnothing, hbefore, Option.elim_some]

/-- The local copies that are not taken yet: they can be found by their texts, and have no id. -/
structure Spares (next : SlotTable) (listed locals : List Copy)
    (spare : Std.HashMap CText Nat) : Prop where
  slots : ∀ (text : CText) (slot : Nat), spare[text]? = some slot ↔ ⟨text, slot⟩ ∈ locals
  texts : (locals.map (·.text)).Nodup
  serials : ((listed ++ locals).map (·.serial)).Nodup
  copies : ∀ copy ∈ locals, next.copies[copy.serial]? = some copy.text

section Spares

variable {locals : List Copy} {spare : Std.HashMap CText Nat} {copy : Copy}

theorem Spares.free (h : next.Spares listed locals spare) (hmem : copy ∈ locals) :
    copy.serial ∉ listed.map (·.serial) := by
  have hserials := h.serials
  rw [List.map_append, List.nodup_append] at hserials
  exact fun hbefore => hserials.2.2 _ hbefore _ (List.mem_map_of_mem hmem) rfl

/-- One of them is taken. -/
theorem Spares.take (h : next.Spares listed locals spare) (hmem : copy ∈ locals) :
    (next.assign copy.serial).Spares (listed ++ [copy]) (locals.erase copy)
      (spare.erase copy.text) := by
  have hslot : spare[copy.text]? = some copy.serial := (h.slots _ _).2 hmem
  have hback : ((listed ++ [copy]) ++ locals.erase copy).Perm (listed ++ locals) := by
    rw [List.append_assoc]
    exact ((List.perm_cons_erase hmem).symm).append_left listed
  refine ⟨fun text slot => ?_, h.texts.sublist (List.erase_sublist.map _),
    (hback.map _).nodup_iff.2 h.serials,
    fun other hother => h.copies other (List.mem_of_mem_erase hother)⟩
  rw [Std.HashMap.getElem?_erase, (List.Nodup.of_map _ h.texts).mem_erase_iff, ← h.slots]
  by_cases hsame : copy.text = text
  · subst hsame
    rw [beq_self_eq_true, if_pos rfl, hslot]
    refine ⟨fun hfound => (nomatch hfound), fun ⟨hne, hfound⟩ => ?_⟩
    exact absurd (Copy.mk.injEq .. ▸ ⟨rfl, (Option.some.inj hfound).symm⟩) hne
  · rw [beq_false_of_ne hsame, if_neg Bool.false_ne_true]
    exact ⟨fun hfound => ⟨fun heq => hsame (congrArg Copy.text heq).symm, hfound⟩, And.right⟩

/-- A new copy is none of them. -/
theorem Spares.push (h : next.Spares listed locals spare) (hnumbers : next.Numbers listed)
    (text : CText) :
    ((next.pushCopy text).assign next.copies.size).Spares (listed ++ [⟨text, next.copies.size⟩])
      locals spare := by
  refine ⟨h.slots, h.texts, ?_, fun copy hmem => getElem?_pushCopy (h.copies copy hmem) text⟩
  have hfront : (listed ++ [Copy.mk text next.copies.size] ++ locals).Perm
      (Copy.mk text next.copies.size :: (listed ++ locals)) := by
    rw [List.append_assoc]
    exact List.perm_middle
  rw [(hfront.map Copy.serial).nodup_iff, List.map_cons, List.nodup_cons]
  refine ⟨fun hmem => ?_, h.serials⟩
  obtain ⟨copy, hcopy, hsame⟩ := List.mem_map.1 hmem
  have hlt : copy.serial < next.copies.size := by
    rcases List.mem_append.1 hcopy with hcopy | hcopy
    · exact hnumbers.slot_lt hcopy
    · exact (Array.getElem?_eq_some_iff.1 (h.copies copy hcopy)).1
  exact Nat.ne_of_lt hlt hsame

/-- **The new strings get the next ids**: of equal texts the first takes the spare slot with that
    text, and what finds none gets a new one. -/
theorem Spares.foldl_seat {start : SlotTable} (h : next.Spares listed locals spare)
    (hrenumbers : start.Renumbers next listed) (hapart : Apart start.placement)
    (previous : Array Nat) {shared pos : Nat} (hshared : shared ≤ pos) {news : List CText}
    (hnews : strings.drop pos = news) (hroom : next.copies.size + news.length ≤ maxStrings) :
    ∃ last rest,
      (List.range' pos news.length).foldl (seat previous shared strings) (next, spare) =
        (last, rest) ∧
        start.Renumbers last (listed ++ (adopt news locals next.copies.size).1) ∧
        last.copies.size = (adopt news locals next.copies.size).2.2 := by
  induction news generalizing next listed pos spare locals with
  | nil => exact ⟨next, spare, rfl, by simpa [adopt] using hrenumbers, rfl⟩
  | cons text news ih =>
    have hat : strings[pos]? = some text := by
      have hfirst := congrArg (·[0]?) hnews
      simpa using hfirst
    have hrest : strings.drop (pos + 1) = news := by
      rw [← List.tail_drop, hnews, List.tail_cons]
    have hnew : (if pos < shared then none else strings[pos]?) = some text := by
      rw [if_neg (Nat.not_lt.2 hshared), hat]
    rw [List.length_cons] at hroom
    rw [List.length_cons, List.range'_succ, List.foldl_cons]
    unfold adopt
    split
    · rename_i copy hfind
      have hmem := List.mem_of_find?_eq_some hfind
      obtain rfl : copy.text = text :=
        eq_of_beq (List.find?_some (p := fun other : Copy => other.text == text) hfind)
      have hslot : spare[copy.text]? = some copy.serial := (h.slots _ _).2 hmem
      have hseat : seat previous shared strings (next, spare) pos =
          (next.assign copy.serial, spare.erase copy.text) := by
        simp only [seat, hnew, hslot]
      obtain ⟨last, rest, hfold, hlast, hsize⟩ := ih (h.take hmem)
        (hrenumbers.assign (h.copies copy hmem) (h.free hmem)) (Nat.le_succ_of_le hshared) hrest
        (show next.copies.size + news.length ≤ maxStrings by omega)
      rw [List.append_assoc] at hlast
      exact ⟨last, rest, hseat ▸ hfold, hlast, hsize⟩
    · rename_i hfind
      have hslot : spare[text]? = none := by
        cases hslot : spare[text]? with
        | none => rfl
        | some slot =>
          exact absurd (beq_self_eq_true text)
            (List.find?_eq_none.1 hfind _ ((h.slots _ _).1 hslot))
      have hseat : seat previous shared strings (next, spare) pos =
          ((next.pushCopy text).assign next.copies.size, spare) := by
        simp only [seat, hnew, hslot]
      have hsize : ((next.pushCopy text).assign next.copies.size).copies.size =
          next.copies.size + 1 :=
        Array.size_push ..
      obtain ⟨last, rest, hfold, hlast, hlength⟩ := ih (h.push hrenumbers.numbers text)
        (hrenumbers.push hapart (by omega) text) (Nat.le_succ_of_le hshared) hrest (by omega)
      rw [hsize] at hlast hlength
      rw [List.append_assoc] at hlast
      exact ⟨last, rest, hseat ▸ hfold, hlast, hlength⟩

end Spares

/-- **The copies that have no id yet get the next ones**, in their order. -/
theorem Renumbers.foldl_seatLeft {start : SlotTable} (h : start.Renumbers next listed)
    (locals : List Copy) (hserials : (locals.map (·.serial)).Nodup)
    (hcopies : ∀ copy ∈ locals, next.copies[copy.serial]? = some copy.text) :
    start.Renumbers ((locals.map (·.serial)).foldl seatLeft next)
        (listed ++ locals.filter (·.serial ∉ listed.map (·.serial))) ∧
      ((locals.map (·.serial)).foldl seatLeft next).copies = next.copies := by
  induction locals generalizing next listed with
  | nil => exact ⟨by simpa using h, rfl⟩
  | cons copy locals ih =>
    obtain ⟨hother, hserials⟩ := List.nodup_cons.1 hserials
    obtain ⟨hcopy, hcopies⟩ := List.forall_mem_cons.1 hcopies
    rw [List.map_cons, List.foldl_cons]
    by_cases hfree : copy.serial ∈ listed.map (·.serial)
    · have hkept : next.seatLeft copy.serial = next := by
        have hid := mt findIdx?_serial_eq_none.1 (not_not.2 hfree)
        rw [← h.numbers.idOf?] at hid
        rw [seatLeft, if_neg (by simpa using hid)]
      rw [hkept, List.filter_cons_of_neg (by simpa using hfree)]
      exact ih h hserials hcopies
    · have hseated : next.seatLeft copy.serial = next.assign copy.serial := by
        rw [seatLeft, h.numbers.idOf?, findIdx?_serial_eq_none.2 hfree]
        rfl
      rw [hseated, List.filter_cons_of_pos (by simpa using hfree)]
      obtain ⟨hall, hsame⟩ := ih (h.assign hcopy hfree) hserials hcopies
      refine ⟨?_, hsame⟩
      have hrest : locals.filter (·.serial ∉ (listed ++ [copy]).map (·.serial)) =
          locals.filter (·.serial ∉ listed.map (·.serial)) := by
        refine List.filter_congr fun other hmem => ?_
        have hne : other.serial ≠ copy.serial :=
          fun heq => hother (List.mem_map.2 ⟨other, hmem, heq⟩)
        simp [hne]
      rwa [hrest, List.append_assoc] at hall

/-- Where every slot has an id, none is lent one. -/
theorem foldl_lend {slots : List Nat} (h : ∀ slot ∈ slots, (table.idOf? slot).isSome = true) :
    slots.foldl lend table = table := by
  induction slots with
  | nil => rfl
  | cons slot slots ih =>
    obtain ⟨hslot, hslots⟩ := List.forall_mem_cons.1 h
    have hkept : table.lend slot = table := by
      rw [lend, if_neg]
      simpa [Option.isSome_iff_ne_none] using hslot
    rw [List.foldl_cons, hkept, ih hslots]

/-- The first string that differs from what is pinned is the same. -/
theorem Represents.conflict?_eq (h : table.Represents plain) (strings : List CText) :
    table.conflict? (min table.pinned strings.length) strings = plain.conflict? strings := by
  refine find?_range_eq_findIdx? ?_ fun i pair hpair => ?_
  · rw [List.length_zip, List.length_take, length_texts, h.pinned,
      Nat.min_eq_left h.sound.pinned_le]
  · obtain ⟨hpinned, hloaded⟩ := List.getElem?_zip_eq_some.1 hpair
    have hlt := (List.getElem?_eq_some_iff.1 hpinned).1
    rw [List.length_take] at hlt
    rw [List.getElem?_take_of_lt (by omega), ← StringTable.text?_eq] at hpinned
    rw [h.text?_eq, hpinned, hloaded]
    rfl

/-- Filling a map with the slots of copies whose texts differ. -/
theorem getElem?_foldl_spare {locals : List Copy} (htexts : (locals.map (·.text)).Nodup)
    (hcopies : ∀ copy ∈ locals, table.copies[copy.serial]? = some copy.text) (text : CText)
    (slot : Nat) :
    ((locals.map (·.serial)).foldl
        (fun spare slot => (table.copies[slot]?).elim spare (spare.insert · slot))
        (∅ : Std.HashMap CText Nat))[text]? = some slot ↔ ⟨text, slot⟩ ∈ locals := by
  induction locals using List.reverseRecOn with
  | nil => simp
  | append_singleton locals copy ih =>
    rw [List.map_append, List.nodup_append] at htexts
    obtain ⟨hearlier, -, hother⟩ := htexts
    have hcopy := hcopies copy (List.mem_append_right _ List.mem_cons_self)
    have hnew : ∀ slot, ⟨copy.text, slot⟩ ∉ locals := fun slot hmem =>
      hother _ (List.mem_map_of_mem hmem) _ (List.mem_singleton.2 rfl) rfl
    rw [List.map_append, List.foldl_append, List.map_singleton, List.foldl_cons,
      List.foldl_nil, hcopy, Option.elim_some, Std.HashMap.getElem?_insert, List.mem_append,
      List.mem_singleton]
    by_cases hsame : copy.text = text
    · subst hsame
      rw [beq_self_eq_true, if_pos rfl]
      refine ⟨fun hslot => .inr ?_, fun hmem => ?_⟩
      · rw [← Option.some.inj hslot]
      · exact congrArg some (congrArg Copy.serial (hmem.resolve_left (hnew slot))).symm
    · rw [beq_false_of_ne hsame, if_neg Bool.false_ne_true,
        ih hearlier fun other hmem => hcopies other (List.mem_append_left _ hmem)]
      exact ⟨.inl, fun hmem => hmem.resolve_right fun heq => hsame (congrArg Copy.text heq).symm⟩

/-- What is spare at first are the copies of all strings that were interned here. -/
theorem Represents.spares (h : table.Represents plain) (hcopies : next.copies = table.copies) :
    next.Spares (plain.copies.toList.take plain.pinned) (plain.copies.toList.drop plain.pinned)
      table.spareSlots := by
  have htexts : ((plain.copies.toList.drop plain.pinned).map (·.text)).Nodup := by
    rw [List.map_drop]
    exact h.sound.nodup
  have hthere : ∀ copy ∈ plain.copies.toList.drop plain.pinned,
      table.copies[copy.serial]? = some copy.text :=
    fun copy hmem => h.numbers.copies copy (List.mem_of_mem_drop hmem)
  refine ⟨fun text slot => ?_, htexts, ?_, fun copy hmem => by rw [hcopies, hthere copy hmem]⟩
  · rw [spareSlots, h.numbers.ids, h.pinned, ← List.map_drop]
    exact getElem?_foldl_spare htexts hthere text slot
  · rw [List.take_append_drop]
    exact h.numbered.nodup_iff.2 List.nodup_range

/-- New copies are numbered on, by as many as are not taken from the local ones. -/
theorem last_adopt (news : List CText) (locals : List Copy) (count : Nat) :
    (adopt news locals count).1.length + (adopt news locals count).2.1.length + count =
      locals.length + (adopt news locals count).2.2 := by
  induction news generalizing locals count with
  | nil => simp [adopt]
  | cons text news ih =>
    unfold adopt
    split
    · rename_i copy hfind
      have hmem := List.mem_of_find?_eq_some hfind
      have hlength := List.length_erase_of_mem hmem
      have hpos := List.length_pos_of_mem hmem
      have hrest := ih (locals.erase copy) count
      revert hrest
      rcases adopt news (locals.erase copy) count with ⟨adopted, left, last⟩
      simp only [List.length_cons]
      omega
    · have hrest := ih locals (count + 1)
      revert hrest
      rcases adopt news locals (count + 1) with ⟨adopted, left, last⟩
      simp only [List.length_cons]
      omega

/-- After loading there are as many strings as copies have been made. -/
theorem last_of_load (hsound : plain.Sound) (hload : plain.load strings = .ok after) :
    (adopt (strings.drop plain.pinned) (plain.copies.toList.drop plain.pinned) plain.size).2.2 =
      after.size := by
  obtain ⟨-, -, -, hcopies⟩ := load_ok hload
  have hcount := last_adopt (strings.drop plain.pinned) (plain.copies.toList.drop plain.pinned)
    plain.size
  have hsize := congrArg List.length hcopies
  have hpinned : plain.pinned ≤ plain.copies.size := hsound.pinned_le
  have hbefore : plain.copies.size = plain.size := rfl
  have hafter : after.copies.size = after.size := rfl
  simp only [List.length_append, List.length_take, List.length_drop, Array.length_toList]
    at hcount hsize
  omega

/-- **What is left over are the local copies that have no id yet.** -/
theorem left_eq_filter {news : List CText} {locals : List Copy} {count : Nat}
    (htexts : (locals.map (·.text)).Nodup)
    (hserials : ((listed ++ (adopt news locals count).1 ++ (adopt news locals count).2.1).map
      (·.serial)).Nodup) :
    (adopt news locals count).2.1 =
      locals.filter (·.serial ∉ (listed ++ (adopt news locals count).1).map (·.serial)) := by
  obtain ⟨fresh, hperm, -⟩ := adopt_perm news locals count
  rw [List.map_append, List.nodup_append] at hserials
  have hleft := left_adopt news htexts count
  rw [hleft]
  refine List.filter_congr fun copy hmem =>
    decide_eq_decide.2 ⟨fun hnew hlisted => ?_, fun hfree hnews => hfree ?_⟩
  · have hcopy : copy ∈ (adopt news locals count).2.1 := by
      rw [hleft]
      exact List.mem_filter.2 ⟨hmem, decide_eq_true hnew⟩
    exact hserials.2.2 _ hlisted _ (List.mem_map_of_mem hcopy) rfl
  · have hboth := hperm.mem_iff.2 (List.mem_append_left fresh hmem)
    rcases List.mem_append.1 hboth with hadopted | hover
    · exact List.mem_map_of_mem (List.mem_append_right _ hadopted)
    · rw [hleft] at hover
      exact absurd hnews (of_decide_eq_true (List.mem_filter.1 hover).2)

/-- **Loading gives the slots the ids that the copies have without maps**: first those that were
    pinned, then those of the new strings, then those that are left over. -/
theorem Represents.renumbers_load (h : table.Represents plain) (hapart : Apart plain.placement)
    (hload : plain.load strings = .ok after) :
    ∃ seated rest,
      (List.range (max plain.pinned strings.length)).foldl
          (seat table.ids (min plain.pinned strings.length) strings)
          (table.unnumbered, table.spareSlots) = (seated, rest) ∧
      table.Renumbers ((table.ids.toList.drop plain.pinned).foldl seatLeft seated)
        after.copies.toList ∧
      ((table.ids.toList.drop plain.pinned).foldl seatLeft seated).copies.size = after.size := by
  obtain ⟨-, -, hroom, hcopies⟩ := load_ok hload
  have hnodup : (plain.copies.toList.map (·.serial)).Nodup :=
    h.numbered.nodup_iff.2 List.nodup_range
  have hserials : (after.copies.toList.map (·.serial)).Nodup :=
    (h.numbered.extends (extends_load hload)).nodup_iff.2 List.nodup_range
  obtain ⟨kept, hfirst, hkept, hsame⟩ :=
    h.foldl_seat_pinned strings table.spareSlots (Nat.le_refl plain.pinned)
  rw [h.pinned] at hfirst
  have hspares := h.spares hsame
  have hslots : kept.copies.size = plain.size := by rw [hsame, h.slots]
  have hnews : kept.copies.size + (strings.drop plain.pinned).length ≤ maxStrings := by
    rw [hslots, List.length_drop]
    omega
  obtain ⟨seated, rest, hsecond, hseated, hlast⟩ :=
    hspares.foldl_seat hkept (h.placement ▸ hapart) table.ids
      (Nat.min_le_left plain.pinned strings.length) rfl hnews
  rw [hslots] at hseated hlast
  obtain ⟨hnumbers, hcopies'⟩ := hseated.foldl_seatLeft (plain.copies.toList.drop plain.pinned)
    (hnodup.sublist ((List.drop_sublist _ _).map _))
    fun copy hmem => hseated.keeps _ _ (h.numbers.copies copy (List.mem_of_mem_drop hmem))
  rw [← left_eq_filter hspares.texts (hcopies ▸ hserials), ← hcopies] at hnumbers
  rw [h.numbers.ids, ← List.map_drop]
  refine ⟨seated, rest, ?_, hnumbers, ?_⟩
  · have hboth : max plain.pinned strings.length =
        plain.pinned + (strings.drop plain.pinned).length := by
      rw [List.length_drop]
      omega
    rw [hboth, List.range_add, ← List.range'_eq_map_range, List.foldl_append, hfirst, hsecond]
  · rw [hcopies', hlast, last_of_load h.sound hload]

/-- **Loading answers the same with maps as without, and the tables stay alike.** -/
theorem Represents.load (h : table.Represents plain) (hapart : Apart plain.placement)
    (strings : List CText) : Agrees Represents (table.load strings) (plain.load strings) := by
  have hconflict := h.conflict?_eq strings
  rw [h.pinned] at hconflict
  by_cases hfull : maxStrings < max plain.pinned strings.length + (plain.size - plain.pinned)
  · simp only [SlotTable.load, StringTable.load, h.pinned, h.size_eq, hfull, if_true]
    exact .refused _
  cases hfound : plain.conflict? strings with
  | some index =>
    simp only [SlotTable.load, StringTable.load, h.pinned, h.size_eq, hfull, if_false, hconflict,
      hfound]
    exact .refused _
  | none =>
    obtain ⟨after, hload⟩ : ∃ after, plain.load strings = .ok after := by
      simp [StringTable.load, hfull, hfound]
    obtain ⟨hpinned, -⟩ := load_ok hload
    obtain ⟨hplacement, haliases⟩ := kept_load hload
    have hnumbered : after.Numbered := h.numbered.extends (extends_load hload)
    obtain ⟨seated, rest, hseated, hall, hsize⟩ := h.renumbers_load hapart hload
    have hlent := foldl_lend fun slot (hmem : slot ∈ List.range _) => by
      rw [hall.numbers.idOf?, Option.isSome_iff_ne_none, Ne, findIdx?_serial_eq_none, not_not,
        hnumbered.mem_iff, ← hsize]
      exact hmem
    have hrun : table.load strings =
        .ok { (table.ids.toList.drop plain.pinned).foldl seatLeft seated with
          pinned := max plain.pinned strings.length } := by
      simp only [SlotTable.load, h.pinned, h.size_eq, hfull, if_false, hconflict, hfound, hseated,
        hlent]
    rw [hrun, hload]
    refine .answered ⟨⟨hall.numbers.ids, hall.numbers.copies, hall.numbers.slots,
      hall.numbers.idOf?, hall.numbers.byText⟩, hall.placed,
      hall.placement.trans (h.placement.trans hplacement.symm), hsize, fun addr => ?_,
      fun addr slot hslot => ?_, hpinned.symm, h.sound.load hload, hnumbered⟩
    · rw [haliases, ← h.aliases addr]
      exact congrArg (·[addr]?) hall.aliases
    · have hbefore := h.known addr slot ((congrArg (·[addr]?) hall.aliases).symm.trans hslot)
      exact (Array.getElem?_eq_some_iff.1 (hall.keeps slot _ (Array.getElem?_eq_getElem hbefore))).1

end Alike

/-! ## 6. In every process -/

/-- The table with maps after an event. What is refused leaves it as it was. -/
def apply (table : SlotTable) : SymbolEvent → SlotTable
  | .installed _ => table
  | .interned pointer text =>
    match table.intern pointer text with
    | .ok (_, after) => after
    | .error _ => table
  | .loaded strings =>
    match table.load strings with
    | .ok after => after
    | .error _ => table

/-- The table with maps after events. -/
def after (table : SlotTable) (events : List SymbolEvent) : SlotTable := events.foldl apply table

/-- **Whatever happens in a process, its table with maps stands for the table without.** -/
theorem Represents.apply {table : SlotTable} {symbols : SymbolTable}
    (h : table.Represents symbols.strings) (hapart : Apart symbols.strings.placement)
    (event : SymbolEvent) :
    (table.apply event).Represents (symbols.apply event).strings := by
  cases event with
  | installed installation =>
    rw [SymbolTable.install_eq]
    exact h
  | interned pointer text =>
    have hrun := h.intern hapart pointer text
    simp only [SlotTable.apply, SymbolTable.apply, SymbolTable.intern]
    generalize table.intern pointer text = found, symbols.strings.intern pointer text = kept at hrun
    cases hrun with
    | refused cause => exact h
    | answered hboth => exact hboth.2
  | loaded strings =>
    have hrun := h.load hapart strings
    simp only [SlotTable.apply, SymbolTable.apply, SymbolTable.loadStrings]
    generalize table.load strings = found, symbols.strings.load strings = kept at hrun
    cases hrun with
    | refused cause => exact h
    | answered hafter => exact hafter

theorem Represents.after {table : SlotTable} {symbols : SymbolTable}
    (h : table.Represents symbols.strings) (hapart : Apart symbols.strings.placement)
    (events : List SymbolEvent) :
    (table.after events).Represents (symbols.after events).strings := by
  induction events generalizing table symbols with
  | nil => exact h
  | cons event events ih =>
    exact ih (h.apply hapart event) ((symbols.extends_apply event).1.symm ▸ hapart)

/-- **A table with maps answers what the table without them answers.** In every process whose host
    puts copies apart, whatever was interned and loaded: no place that the table with maps names is
    missing; it lists the same strings and looks up the same strings, addresses and ids; it answers
    the same id for a string that is interned, and refuses the same strings and the same lists for
    the same causes. -/
theorem slots_answer (anchor : Anchor) (placement : Nat → Address) (hapart : Apart placement)
    (events : List SymbolEvent) :
    let slots := (SlotTable.empty placement).after events
    let plain := ((SymbolTable.empty anchor placement).after events).strings
    slots.InRange ∧ slots.texts = plain.texts ∧ slots.pinned = plain.pinned ∧
      (∀ index, slots.text? index = plain.text? index ∧
        slots.addressOf? index = plain.addressOf? index) ∧
      (∀ addr, slots.indexOfAddress? addr = plain.indexOfAddress? addr) ∧
      (∀ pointer text, (slots.intern pointer text).map (·.1) =
        (plain.intern pointer text).map (·.1)) ∧
      ∀ strings, (slots.load strings).map (fun _ => ()) = (plain.load strings).map fun _ => () := by
  intro slots plain
  have hstrings : (SlotTable.empty placement).Represents
      (SymbolTable.empty anchor placement).strings :=
    represents_empty placement
  have h : slots.Represents plain := hstrings.after hapart events
  have hplain : Apart plain.placement := by
    rw [(SymbolTable.extends_after (SymbolTable.empty anchor placement) events).1]
    exact hapart
  exact ⟨h.inRange, h.texts_eq, h.pinned, fun index => ⟨h.text?_eq index, h.addressOf?_eq index⟩,
    h.indexOfAddress?_eq,
    fun pointer text => (h.intern hplain pointer text).map_eq fun _ _ hboth => hboth.1,
    fun strings => (h.load hplain strings).map_eq fun _ _ _ => rfl⟩

end SlotTable

end CodeVault
