import CodeVault.Proofs.Symbol.Loads

/-!
# Addresses through their symbols and back

Three sources of ids share one range of words: interned strings, registered addresses, and distances
from the anchor.

* copies of strings stay, each with its own serial number (`copies_apply`), and a pointer leads to
  the copy of the text that it was last given for (`Known.after`);
* **the symbol of an address leads back to what the address stands for** (`StandsFor`), now and
  after any later registrations and interning, and addresses that no string is known by have symbols
  of their own (`symbolOf_round_trip`).
-/

namespace CodeVault

namespace StringTable

variable {table after : StringTable} {strings : List CText}

/-! ## 1. Copies -/

/-- The copies of one table are those of another and new ones, numbered on. -/
def Extends (before after : StringTable) : Prop :=
  after.placement = before.placement ∧ ∃ fresh : List Copy,
    after.copies.toList.Perm (before.copies.toList ++ fresh) ∧
      fresh.map (·.serial) = List.range' before.size fresh.length

theorem Extends.refl (table : StringTable) : Extends table table :=
  ⟨rfl, [], by rw [List.append_nil], rfl⟩

theorem Extends.mem {before : StringTable} (h : Extends before after) {copy : Copy}
    (hmem : copy ∈ before.copies) : copy ∈ after.copies := by
  obtain ⟨-, fresh, hperm, -⟩ := h
  rw [← Array.mem_toList_iff, hperm.mem_iff]
  exact List.mem_append_left _ (Array.mem_toList_iff.2 hmem)

theorem size_of_perm {fresh : List Copy}
    (h : after.copies.toList.Perm (table.copies.toList ++ fresh)) :
    after.size = table.size + fresh.length := by
  have hlength := h.length_eq
  rwa [List.length_append, Array.length_toList, Array.length_toList] at hlength

theorem Extends.trans {first second third : StringTable} (h : Extends first second)
    (h' : Extends second third) :
    Extends first third := by
  obtain ⟨hplacement, fresh, hperm, hserials⟩ := h
  obtain ⟨hplacement', fresh', hperm', hserials'⟩ := h'
  refine ⟨hplacement'.trans hplacement, fresh ++ fresh', ?_, ?_⟩
  · rw [← List.append_assoc]
    exact hperm'.trans (hperm.append_right _)
  · rw [List.map_append, hserials, hserials', size_of_perm hperm, List.length_append,
      List.range'_append_1]

/-- What is adopted and what is left over are the copies that were there, and new ones, numbered
    on. -/
theorem adopt_perm (strings : List CText) (spare : List Copy) (next : Nat) :
    ∃ fresh : List Copy,
      ((adopt strings spare next).1 ++ (adopt strings spare next).2.1).Perm (spare ++ fresh) ∧
        fresh.map (·.serial) = List.range' next fresh.length := by
  induction strings generalizing spare next with
  | nil => exact ⟨[], by simp [adopt], rfl⟩
  | cons text rest ih =>
    unfold adopt
    split
    · rename_i copy hfind
      obtain ⟨fresh, hperm, hserials⟩ := ih (spare.erase copy) next
      refine ⟨fresh, ?_, hserials⟩
      have hback : (copy :: spare.erase copy).Perm spare :=
        (List.perm_cons_erase (List.mem_of_find?_eq_some hfind)).symm
      exact (hperm.cons copy).trans (hback.append_right fresh)
    · obtain ⟨fresh, hperm, hserials⟩ := ih spare (next + 1)
      refine ⟨⟨text, next⟩ :: fresh, (hperm.cons _).trans List.perm_middle.symm, ?_⟩
      rw [List.map_cons, hserials, List.length_cons, List.range'_succ]

/-- Loading does not move copies, and pointers stand for the same copies. -/
theorem kept_load (h : table.load strings = .ok after) :
    after.placement = table.placement ∧ after.aliases = table.aliases := by
  unfold load at h
  dsimp only at h
  split at h
  · cases h
  · split at h
    · cases h
    · cases h
      exact ⟨rfl, rfl⟩

theorem extends_load (h : table.load strings = .ok after) : Extends table after := by
  obtain ⟨-, -, -, hcopies⟩ := load_ok h
  obtain ⟨fresh, hperm, hserials⟩ :=
    adopt_perm (strings.drop table.pinned) (table.copies.toList.drop table.pinned) table.size
  refine ⟨(kept_load h).1, fresh, ?_, hserials⟩
  rw [hcopies, List.append_assoc]
  refine (hperm.append_left _).trans ?_
  rw [← List.append_assoc, List.take_append_drop]

theorem copies_addAlias (table : StringTable) (pointer : Address) (index : Nat) :
    (table.addAlias pointer index).copies = table.copies ∧
      (table.addAlias pointer index).placement = table.placement := by
  unfold addAlias
  split <;> exact ⟨rfl, rfl⟩

/-- Interning leaves the copies as they are, or adds one for a new string at the end. -/
theorem copies_intern {pointer : Address} {text : CText} {index : Nat}
    (h : table.intern pointer text = .ok (index, after)) :
    after.placement = table.placement ∧ (after.copies = table.copies ∨
      text ∉ table.texts ∧ after.copies = table.copies.push ⟨text, table.size⟩) := by
  rcases intern_outcomes h with ⟨-, -, rfl⟩ | ⟨-, ⟨-, rfl⟩ | ⟨hnew, -, -, rfl⟩⟩
  · exact ⟨rfl, .inl rfl⟩
  · exact ⟨(copies_addAlias ..).2, .inl (copies_addAlias ..).1⟩
  · exact ⟨(copies_addAlias ..).2, .inr ⟨not_mem_of_indexOfText? hnew, (copies_addAlias ..).1⟩⟩

/-- Ids in use keep their copy. -/
theorem getElem?_copies_intern {pointer : Address} {text : CText} {index : Nat}
    (h : table.intern pointer text = .ok (index, after)) {other : Nat} (hlt : other < table.size) :
    after.copies[other]? = table.copies[other]? := by
  rcases (copies_intern h).2 with hsame | ⟨-, hpushed⟩
  · rw [hsame]
  · have hne : other ≠ table.copies.size := Nat.ne_of_lt hlt
    rw [hpushed, Array.getElem?_push, if_neg hne]

theorem extends_intern {pointer : Address} {text : CText} {index : Nat}
    (h : table.intern pointer text = .ok (index, after)) : Extends table after := by
  obtain ⟨hplacement, hcopies | ⟨-, hcopies⟩⟩ := copies_intern h
  · exact ⟨hplacement, [], by rw [hcopies, List.append_nil], rfl⟩
  · exact ⟨hplacement, [⟨text, table.size⟩], by rw [hcopies, Array.toList_push], rfl⟩

/-- The serial numbers of the copies are those below their number, each once. -/
def Numbered (table : StringTable) : Prop :=
  (table.copies.toList.map (·.serial)).Perm (List.range table.size)

theorem numbered_empty (placement : Nat → Address) : (empty placement).Numbered := .nil

theorem Numbered.extends (h : table.Numbered) (hextends : Extends table after) :
    after.Numbered := by
  obtain ⟨-, fresh, hperm, hserials⟩ := hextends
  have hsize := size_of_perm hperm
  have hmapped := hperm.map (·.serial)
  rw [List.map_append, hserials] at hmapped
  refine hmapped.trans ((h.append_right _).trans ?_)
  rw [hsize, List.range_eq_range', List.range_eq_range']
  have happend := List.range'_append_1 (s := 0) (m := table.size) (n := fresh.length)
  rw [Nat.zero_add] at happend
  rw [happend]

/-- Copies with one serial number have one id. -/
theorem Numbered.eq_of_serial (h : table.Numbered) {i j : Nat} {a b : Copy}
    (hi : table.copies[i]? = some a) (hj : table.copies[j]? = some b)
    (hserial : a.serial = b.serial) : i = j := by
  have hnodup : (table.copies.toList.map (·.serial)).Nodup := h.nodup_iff.2 List.nodup_range
  have hat : ∀ {place : Nat} {copy : Copy}, table.copies[place]? = some copy →
      (table.copies.toList.map (·.serial))[place]? = some copy.serial :=
        fun {place copy} hcopy => by
    rw [List.getElem?_map, Array.getElem?_toList, hcopy, Option.map_some]
  exact (List.getElem?_inj (List.getElem?_eq_some_iff.1 (hat hi)).1 hnodup).1
    ((hat hi).trans (hserial ▸ (hat hj).symm))

/-- The id of a copy is the one that is found by its serial number. -/
theorem Numbered.indexOfSerial?_eq (h : table.Numbered) {index : Nat} {copy : Copy}
    (hcopy : table.copies[index]? = some copy) : table.indexOfSerial? copy.serial = some index := by
  cases hfound : table.indexOfSerial? copy.serial with
  | none =>
    have hnone := Array.findIdx?_eq_none_iff.1 hfound copy (Array.mem_of_getElem? hcopy)
    rw [beq_self_eq_true] at hnone
    cases hnone
  | some other =>
    obtain ⟨hlt, hserial, -⟩ := Array.findIdx?_eq_some_iff_getElem.1 hfound
    rw [h.eq_of_serial (Array.getElem?_eq_getElem hlt) hcopy (eq_of_beq hserial)]

/-- A copy is found by its serial number. -/
theorem Numbered.indexOfSerial? (h : table.Numbered) {copy : Copy} (hmem : copy ∈ table.copies) :
    ∃ index, table.indexOfSerial? copy.serial = some index ∧ table.copies[index]? = some copy := by
  obtain ⟨index, hcopy⟩ := Array.getElem?_of_mem hmem
  exact ⟨index, h.indexOfSerial?_eq hcopy, hcopy⟩

/-! ## 2. What pointers were given for -/

/-- A copy is at an address. -/
def HasCopyAt (table : StringTable) (addr : Address) : Prop :=
  ∃ index, table.addressOf? index = some addr

theorem hasCopyAt_iff {addr : Address} :
    table.HasCopyAt addr ↔ ∃ copy ∈ table.copies, table.placement copy.serial = addr := by
  constructor
  · rintro ⟨index, h⟩
    obtain ⟨copy, hcopy, rfl⟩ := Option.map_eq_some_iff.1 h
    exact ⟨copy, Array.mem_of_getElem? hcopy, rfl⟩
  · rintro ⟨copy, hmem, rfl⟩
    obtain ⟨index, hcopy⟩ := Array.getElem?_of_mem hmem
    exact ⟨index, by rw [addressOf?, hcopy, Option.map_some]⟩

theorem HasCopyAt.extends {addr : Address} (h : table.HasCopyAt addr)
    (hextends : Extends table after) :
    after.HasCopyAt addr := by
  obtain ⟨copy, hmem, haddr⟩ := hasCopyAt_iff.1 h
  exact hasCopyAt_iff.2 ⟨copy, hextends.mem hmem, by rw [hextends.1, haddr]⟩

/-- The id of a copy at an address is one of a copy at that address. -/
theorem addressOf?_of_indexOfCopy? {addr : Address} {index : Nat}
    (h : table.indexOfCopy? addr = some index) :
    table.addressOf? index = some addr := by
  obtain ⟨hlt, hplaced, -⟩ := Array.findIdx?_eq_some_iff_getElem.1 h
  rw [addressOf?, Array.getElem?_eq_getElem hlt, Option.map_some, eq_of_beq hplaced]

theorem indexOfCopy?_eq_none {addr : Address} (h : ¬ table.HasCopyAt addr) :
    table.indexOfCopy? addr = none := by
  cases hfound : table.indexOfCopy? addr with
  | none => rfl
  | some index => exact absurd ⟨index, addressOf?_of_indexOfCopy? hfound⟩ h

theorem exists_indexOfCopy? {addr : Address} (h : table.HasCopyAt addr) :
    ∃ index, table.indexOfCopy? addr = some index := by
  cases hfound : table.indexOfCopy? addr with
  | some index => exact ⟨index, rfl⟩
  | none =>
    obtain ⟨copy, hmem, hplaced⟩ := hasCopyAt_iff.1 h
    have hnone := Array.findIdx?_eq_none_iff.1 hfound copy hmem
    rw [hplaced, beq_self_eq_true] at hnone
    cases hnone

/-- What is remembered of pointers: every pointer leads to the copy of the text that it was last
    given for, unless a copy is at it. -/
structure Known (given : Address → Option CText) (table : StringTable) : Prop where
  numbered : table.Numbered
  leads : ∀ addr text, given addr = some text → table.HasCopyAt addr ∨
    ∃ copy ∈ table.copies, table.aliases.lookup addr = some copy.serial ∧ copy.text = text
  forgets : ∀ addr, given addr = none → table.aliases.lookup addr = none

theorem known_empty (placement : Nat → Address) : Known (fun _ => none) (empty placement) :=
  ⟨numbered_empty placement, fun _ _ h => (nomatch h), fun _ _ => rfl⟩

variable {given : Address → Option CText}

/-- What is remembered stays while the pointers stay. -/
theorem Known.extends (h : Known given table) (hextends : Extends table after)
    (haliases : after.aliases = table.aliases) : Known given after := by
  refine ⟨h.numbered.extends hextends, fun addr text hgiven => ?_, fun addr hgiven => ?_⟩
  · rcases h.leads addr text hgiven with hcopy | ⟨copy, hmem, hlookup, htext⟩
    · exact .inl (hcopy.extends hextends)
    · exact .inr ⟨copy, hextends.mem hmem, by rw [haliases, hlookup], htext⟩
  · rw [haliases]
    exact h.forgets addr hgiven

/-- Interning finds the text that the pointer stands for, or else makes the pointer stand for a copy
    of the text. -/
theorem intern_cases {pointer : Address} {text : CText} {index : Nat}
    (h : table.intern pointer text = .ok (index, after)) :
    (after = table ∧ table.indexOfAddress? pointer = some index ∧ table.text? index = some text) ∨
      (∀ found, table.indexOfAddress? pointer = some found → table.text? found ≠ some text) ∧
        ∃ copy, after.copies[index]? = some copy ∧ copy.text = text ∧
          after.aliases = (pointer, copy.serial) :: table.aliases := by
  rcases intern_outcomes h with ⟨hindex, htext, rfl⟩ | ⟨hother, ⟨hfound, rfl⟩ | ⟨-, -, rfl, rfl⟩⟩
  · exact .inl ⟨rfl, hindex, htext⟩
  · obtain ⟨hlt, htext, -⟩ := Array.findIdx?_eq_some_iff_getElem.1 hfound
    refine .inr ⟨hother, table.copies[index], ?_, eq_of_beq htext, ?_⟩
    · rw [(copies_addAlias ..).1]
      exact Array.getElem?_eq_getElem hlt
    · rw [addAlias, Array.getElem?_eq_getElem hlt]
  · have hnew : (table.push text).copies[table.size]? = some ⟨text, table.size⟩ :=
      Array.getElem?_push_size
    refine .inr ⟨hother, ⟨text, table.size⟩, ?_, rfl, ?_⟩
    · rw [(copies_addAlias ..).1]
      exact hnew
    · rw [addAlias, hnew]
      rfl

/-- A pointer that stands for an id is one at which a copy is, or one that leads to the copy of the
    id. -/
theorem indexOfAddress?_cases {addr : Address} {index : Nat}
    (h : table.indexOfAddress? addr = some index) :
    table.indexOfCopy? addr = some index ∨ ∃ copy, table.copies[index]? = some copy ∧
      table.aliases.lookup addr = some copy.serial := by
  unfold indexOfAddress? at h
  split at h
  · rename_i found hfound
    cases h
    exact .inl hfound
  · obtain ⟨serial, hlookup, hserial⟩ := Option.bind_eq_some_iff.1 h
    obtain ⟨hlt, hsame, -⟩ := Array.findIdx?_eq_some_iff_getElem.1 hserial
    exact .inr ⟨_, Array.getElem?_eq_getElem hlt, by rw [hlookup, eq_of_beq hsame]⟩

/-- **A pointer leads to the copy of the text that it was just given for.** -/
theorem Known.intern {pointer : Address} {text : CText} {index : Nat} (h : Known given table)
    (hrun : table.intern pointer text = .ok (index, after)) :
    Known (Function.update given pointer (some text)) after := by
  have hextends := extends_intern hrun
  refine ⟨h.numbered.extends hextends, fun addr found hgiven => ?_, fun addr hgiven => ?_⟩
  · by_cases haddr : addr = pointer
    · subst haddr
      rw [Function.update_self] at hgiven
      cases hgiven
      rcases intern_cases hrun with ⟨rfl, hindex, htext⟩ | ⟨-, copy, hcopy, htext, haliases⟩
      · rcases indexOfAddress?_cases hindex with hcopy | ⟨copy, hcopy, hlookup⟩
        · exact .inl ⟨index, addressOf?_of_indexOfCopy? hcopy⟩
        · refine .inr ⟨copy, Array.mem_of_getElem? hcopy, hlookup, ?_⟩
          rw [text?, hcopy] at htext
          exact Option.some.inj htext
      · exact .inr ⟨copy, Array.mem_of_getElem? hcopy,
          by rw [haliases, List.lookup_cons_self], htext⟩
    · rw [Function.update_of_ne haddr] at hgiven
      rcases h.leads addr found hgiven with hcopy | ⟨copy, hmem, hlookup, htext⟩
      · exact .inl (hcopy.extends hextends)
      · refine .inr ⟨copy, hextends.mem hmem, ?_, htext⟩
        rcases intern_cases hrun with ⟨rfl, -⟩ | ⟨-, other, -, -, haliases⟩
        · exact hlookup
        · rw [haliases, List.lookup_cons, beq_false_of_ne haddr]
          exact hlookup
  · have haddr : addr ≠ pointer := by
      rintro rfl
      rw [Function.update_self] at hgiven
      cases hgiven
    rw [Function.update_of_ne haddr] at hgiven
    rcases intern_cases hrun with ⟨rfl, -⟩ | ⟨-, other, -, -, haliases⟩
    · exact h.forgets addr hgiven
    · rw [haliases, List.lookup_cons, beq_false_of_ne haddr]
      exact h.forgets addr hgiven

/-- What an address stands for: itself, if a copy is at it or no string was given for it; else the
    copy of the string that it was last given for. -/
structure StandsFor (given : Address → Option CText) (table : StringTable)
    (addr target : Address) : Prop where
  copy : table.HasCopyAt addr → target = addr
  pointer : ¬ table.HasCopyAt addr → ∀ text, given addr = some text →
    ∃ index, table.text? index = some text ∧ table.addressOf? index = some target
  other : ¬ table.HasCopyAt addr → given addr = none → target = addr

/-- **The stand-in of an address is what it stands for.** -/
theorem Known.standsFor (h : Known given table) (addr : Address) :
    StandsFor given table addr (table.standIn addr) := by
  refine ⟨fun hcopy => ?_, fun hnot text hgiven => ?_, fun hnot hgiven => ?_⟩
  · obtain ⟨index, hfound⟩ := exists_indexOfCopy? hcopy
    rw [standIn, indexOfAddress?, hfound]
    show (table.addressOf? index).getD addr = addr
    rw [addressOf?_of_indexOfCopy? hfound, Option.getD_some]
  · rcases h.leads addr text hgiven with hcopy | ⟨copy, hmem, hlookup, htext⟩
    · exact absurd hcopy hnot
    · obtain ⟨index, hindex, hcopy⟩ := h.numbered.indexOfSerial? hmem
      have haddress : table.addressOf? index = some (table.placement copy.serial) := by
        rw [addressOf?, hcopy, Option.map_some]
      refine ⟨index, by rw [text?, hcopy, Option.map_some, htext], ?_⟩
      rw [standIn, indexOfAddress?, indexOfCopy?_eq_none hnot]
      show _ =
          some ((((table.aliases.lookup addr).bind table.indexOfSerial?).bind table.addressOf?).getD
            addr)
      rw [hlookup, Option.bind_some, hindex, Option.bind_some, haddress, Option.getD_some]
  · rw [standIn, indexOfAddress?, indexOfCopy?_eq_none hnot]
    show (((table.aliases.lookup addr).bind table.indexOfSerial?).bind table.addressOf?).getD addr =
        addr
    rw [h.forgets addr hgiven]
    rfl

end StringTable

namespace AddressTable

variable {base table : AddressTable}

/-! ## 3. Registered addresses -/

/-- Every address of one table is at the same place in another. -/
def Within (base table : AddressTable) : Prop :=
  ∀ bucket (i : Nat) addr, (base.addresses bucket)[i]? = some addr →
    (table.addresses bucket)[i]? = some addr

theorem stays_within (base : AddressTable) : Stays base.Within where
  push table bucket _ h _ other i addr haddr := by
    have hkept := h other i addr haddr
    rw [addresses_push]
    split
    · have hlt : i < (table.addresses other).size := (Array.getElem?_eq_some_iff.1 hkept).1
      rw [Array.getElem?_push, if_neg (Nat.ne_of_lt hlt), hkept]
    · exact hkept
  same table other hsame h bucket i addr haddr := by
    rw [hsame]
    exact h bucket i addr haddr

/-- **An id that leads to an address leads there for good.** -/
theorem Within.address {id : Nat} {addr : Address} (h : base.Within table)
    (hid : base.address id = .ok addr) :
    table.address id = .ok addr := by
  unfold AddressTable.address at hid ⊢
  cases hbucket : Bucket.forId? id with
  | none =>
    rw [hbucket] at hid
    cases hid
  | some bucket =>
    rw [hbucket] at hid
    dsimp only at hid ⊢
    split at hid
    · rename_i found hfound
      cases hid
      rw [h bucket _ _ hfound]
    · split at hid <;> cases hid

end AddressTable

namespace SymbolTable

variable {table : SymbolTable} {symbol : Symbol} {addr target : Address}
  {given : Address → Option CText}

/-! ## 4. The course of a process -/

/-- What pointers were last given for, after one more event. -/
def remember (table : SymbolTable) (given : Address → Option CText) :
    SymbolEvent → Address → Option CText
  | .interned pointer text =>
    match table.intern pointer text with
    | .ok _ => Function.update given pointer (some text)
    | .error _ => given
  | _ => given

/-- What pointers were last given for, after events. -/
def lastGiven (table : SymbolTable) (given : Address → Option CText) :
    List SymbolEvent → Address → Option CText
  | [] => given
  | event :: events => (table.apply event).lastGiven (table.remember given event) events

theorem install_eq (table : SymbolTable) (installation : Installation) :
    table.apply (.installed installation) =
      { table with addresses := stateOf (AddressTable.install installation table.addresses) } := by
  simp only [apply, install]
  cases AddressTable.install installation table.addresses <;> rfl

theorem apply_interned (pointer : Address) (text : CText) :
    (∃ index after, table.strings.intern pointer text = .ok (index, after) ∧
      table.apply (.interned pointer text) = { table with strings := after }) ∨
    (∃ cause, table.strings.intern pointer text = .error cause ∧
      table.apply (.interned pointer text) = table) := by
  cases hrun : table.strings.intern pointer text with
  | ok result =>
    refine .inl ⟨result.1, result.2, rfl, ?_⟩
    simp only [apply, intern, hrun]
  | error cause =>
    refine .inr ⟨cause, rfl, ?_⟩
    simp only [apply, intern, hrun]

theorem apply_loaded (strings : List CText) :
    (∃ after, table.strings.load strings = .ok after ∧
      table.apply (.loaded strings) = { table with strings := after }) ∨
    (table.loaded? (.loaded strings) = none ∧ table.apply (.loaded strings) = table) := by
  cases hrun : table.strings.load strings with
  | ok after =>
    refine .inl ⟨after, rfl, ?_⟩
    simp only [apply, loadStrings, hrun]
  | error cause =>
    refine .inr ⟨?_, ?_⟩
    · simp [loaded?, loadStrings, hrun, Except.isOk, Except.toBool]
    · simp only [apply, loadStrings, hrun]

/-- **What is remembered of pointers is right after an event**, if it was right before. -/
theorem known_apply (h : table.strings.Known given) (event : SymbolEvent) :
    (table.apply event).strings.Known (table.remember given event) := by
  cases event with
  | installed installation =>
    rw [install_eq]
    exact h
  | interned pointer text =>
    rcases table.apply_interned pointer text with
      ⟨index, after, hrun, happly⟩ | ⟨cause, hrun, happly⟩
    · rw [happly]
      simp only [remember, intern, hrun]
      exact h.intern hrun
    · rw [happly]
      simp only [remember, intern, hrun]
      exact h
  | loaded strings =>
    rcases table.apply_loaded strings with ⟨after, hrun, happly⟩ | ⟨-, happly⟩
    · rw [happly]
      exact h.extends (StringTable.extends_load hrun) (StringTable.kept_load hrun).2
    · rw [happly]
      exact h

theorem known_after (h : table.strings.Known given) (events : List SymbolEvent) :
    (table.after events).strings.Known (table.lastGiven given events) := by
  induction events generalizing table given with
  | nil => exact h
  | cons event events ih => exact ih (known_apply h event)

/-- What a symbol leads to stays while copies, registered addresses and the anchor stay. -/
theorem addressOf_of_kept {now : SymbolTable} (h : table.addressOf symbol = .ok target)
    (hanchor : now.anchor = table.anchor)
    (hstrings : ∀ index found, table.strings.addressOf? index = some found →
      now.strings.addressOf? index = some found)
    (haddresses : table.addresses.Within now.addresses) : now.addressOf symbol = .ok target := by
  cases symbol with
  | anchorDistance distance =>
    simp only [addressOf, hanchor] at h ⊢
    exact h
  | id id =>
    simp only [addressOf] at h ⊢
    split at h
    · rename_i hstring
      rw [if_pos hstring]
      split at h
      · cases h
      · rename_i hbelow
        rw [if_neg hbelow]
        split at h
        · rename_i found hfound
          cases h
          rw [hstrings _ _ hfound]
        · cases h
    · rename_i hstring
      rw [if_neg hstring]
      exact liftError_eq_ok.2 (haddresses.address (liftError_eq_ok.1 h))

theorem addressOf?_intern {strings after : StringTable} {pointer : Address} {text : CText}
    {index : Nat} (hrun : strings.intern pointer text = .ok (index, after)) {place : Nat}
    {found : Address} (h : strings.addressOf? place = some found) :
    after.addressOf? place = some found := by
  obtain ⟨copy, hcopy, rfl⟩ := Option.map_eq_some_iff.1 h
  have hlt : place < strings.copies.size := (Array.getElem?_eq_some_iff.1 hcopy).1
  rw [StringTable.addressOf?, StringTable.getElem?_copies_intern hrun hlt, hcopy,
    (StringTable.copies_intern hrun).1, Option.map_some]

/-- **A symbol leads to the same address after an event that loads nothing.** -/
theorem addressOf_apply {event : SymbolEvent} (hquiet : table.loaded? event = none)
    (h : table.addressOf symbol = .ok target) :
    (table.apply event).addressOf symbol = .ok target := by
  cases event with
  | installed installation =>
    rw [install_eq]
    refine addressOf_of_kept h rfl (fun _ _ hfound => hfound) ?_
    exact (AddressTable.stays_within table.addresses).install installation
      fun _ _ _ hfound => hfound
  | interned pointer text =>
    rcases table.apply_interned pointer text with ⟨index, after, hrun, happly⟩ | ⟨-, -, happly⟩
    · rw [happly]
      exact addressOf_of_kept h rfl (fun _ _ hfound => addressOf?_intern hrun hfound)
        fun _ _ _ hfound => hfound
    · rw [happly]
      exact h
  | loaded strings =>
    rcases table.apply_loaded strings with ⟨after, hrun, happly⟩ | ⟨-, happly⟩
    · rw [loaded?, loadStrings, hrun] at hquiet
      cases hquiet
    · rw [happly]
      exact h

/-- **A symbol leads to the same address as long as nothing is loaded.** -/
theorem addressOf_after {later : List SymbolEvent} (hquiet : table.loads later = [])
    (h : table.addressOf symbol = .ok target) :
    (table.after later).addressOf symbol = .ok target := by
  induction later generalizing table with
  | nil => exact h
  | cons event later ih =>
    obtain ⟨hnow, hlater⟩ := List.append_eq_nil_iff.1 hquiet
    exact ih hlater (addressOf_apply (Option.toList_eq_nil_iff.1 hnow) h)

/-! ## 5. Addresses and back -/

/-- A symbol whose number is the number of a word, and not the greatest. -/
theorem ofRaw_of_toNat {raw : UInt32} (hraw : symbol.toRaw? = some raw)
    (hid : ∀ id, symbol = .id id → id < anchorBase) : Symbol.ofRaw raw = symbol := by
  have hnum := toRaw?_eq_some hraw
  cases symbol with
  | id id =>
    have hbelow := hid id rfl
    simp only [Symbol.toNat] at hnum
    rw [ofRaw_of_lt (by omega), hnum]
  | anchorDistance distance =>
    simp only [Symbol.toNat] at hnum
    rw [ofRaw_of_le (by omega), hnum, Nat.add_sub_cancel_left]

/-- The numbers of symbols of addresses: ids are below all distances, and distances are not too
    great. -/
theorem toNat_of_symbolOf (hsound : table.Sound) (h : table.symbolOf addr = .ok symbol) :
    (∀ id, symbol = .id id → id < anchorBase) ∧ symbol.toNat < wordSpace - 1 := by
  have hrange : anchorBase < wordSpace - 1 := by decide
  have hlast : anchorBase + maxAnchorDistance < wordSpace - 1 := by decide
  have hof : ∀ {id : Nat}, id < anchorBase → symbol = .id id →
      (∀ id, symbol = .id id → id < anchorBase) ∧ symbol.toNat < wordSpace - 1 := by
    rintro id hid rfl
    refine ⟨fun other hother => ?_, Nat.lt_trans hid hrange⟩
    cases hother
    exact hid
  rcases symbolOf_eq_ok.1 h with
    ⟨index, hindex, rfl⟩ | ⟨-, ⟨id, hlookup, rfl⟩ | ⟨-, distance, -, hnear, rfl⟩⟩
  · exact hof (addressOf_string hsound.strings hindex).1 rfl
  · have hlt := (AddressTable.address_of_lookup? hsound.addresses hlookup).1
    exact hof (Nat.lt_of_lt_of_le hlt (Nat.le_add_right _ _)) rfl
  · refine ⟨nofun, ?_⟩
    simp only [Symbol.toNat]
    omega

/-- **The symbol of an address has a word**, which is not the greatest, and is the symbol of that
    word. -/
theorem ofRaw_of_symbolOf (hsound : table.Sound) (h : table.symbolOf addr = .ok symbol) :
    ∃ raw, symbol.toRaw? = some raw ∧ raw ≠ 0xFFFFFFFF ∧ Symbol.ofRaw raw = symbol := by
  obtain ⟨hid, hlt⟩ := toNat_of_symbolOf hsound h
  have hraw : symbol.toRaw? = some (UInt32.ofNat symbol.toNat) :=
    if_pos (Nat.lt_of_lt_of_le hlt (Nat.sub_le _ _))
  refine ⟨_, hraw, fun hgreatest => ?_, ofRaw_of_toNat hraw hid⟩
  have hnum := toRaw?_eq_some hraw
  rw [hgreatest] at hnum
  have hnot : (0xFFFFFFFF : UInt32).toNat = wordSpace - 1 := by decide
  omega

/-- **Symbols of addresses lead back.** In every process, whatever was registered, interned and
    loaded before: the symbol of an address has a word other than the greatest, is the symbol of
    that word, and leads to what the address stands for, also after anything that loads no strings;
    and two addresses that no string is known by have different symbols. -/
theorem symbolOf_round_trip (anchor : Anchor) (placement : Nat → Address)
    (events : List SymbolEvent) :
    let start := SymbolTable.empty anchor placement
    let table := start.after events
    let given := start.lastGiven (fun _ => none) events
    (∀ addr symbol, table.symbolOf addr = .ok symbol → ∃ raw target, symbol.toRaw? = some raw ∧
      raw ≠ 0xFFFFFFFF ∧ Symbol.ofRaw raw = symbol ∧
      table.addressOf (Symbol.ofRaw raw) = .ok target ∧
      table.strings.StandsFor given addr target ∧
      ∀ later, table.loads later = [] →
      (table.after later).addressOf (Symbol.ofRaw raw) = .ok target) ∧
    ∀ addr other symbol, table.symbolOf addr = .ok symbol → table.symbolOf other = .ok symbol →
      ¬ table.strings.HasCopyAt addr → given addr = none →
      ¬ table.strings.HasCopyAt other → given other = none → addr = other := by
  intro start table given
  have hsound : table.Sound := Reached.sound ⟨anchor, placement, events, rfl⟩
  have hknown : table.strings.Known given := known_after (StringTable.known_empty placement) events
  have hback : ∀ {addr symbol}, table.symbolOf addr = .ok symbol → ∃ raw, symbol.toRaw? = some raw ∧
      raw ≠ 0xFFFFFFFF ∧ Symbol.ofRaw raw = symbol ∧
      table.addressOf (Symbol.ofRaw raw) = .ok (table.strings.standIn addr) := by
    intro addr symbol h
    obtain ⟨raw, hraw, hgreatest, hsymbol⟩ := ofRaw_of_symbolOf hsound h
    exact ⟨raw, hraw, hgreatest, hsymbol, (addressOf_ofRaw hsound h hraw).2⟩
  refine ⟨fun addr symbol h => ?_, fun addr other symbol h hother hcopy hgiven hcopy' hgiven' => ?_⟩
  · obtain ⟨raw, hraw, hgreatest, hsymbol, htarget⟩ := hback h
    exact ⟨raw, _, hraw, hgreatest, hsymbol, htarget, hknown.standsFor addr,
      fun later hquiet => addressOf_after hquiet htarget⟩
  · obtain ⟨raw, -, -, hsymbol, htarget⟩ := hback h
    obtain ⟨raw', -, -, hsymbol', htarget'⟩ := hback hother
    rw [hsymbol] at htarget
    rw [hsymbol', htarget] at htarget'
    have hsame := Except.ok.inj htarget'
    rwa [(hknown.standsFor addr).other hcopy hgiven, (hknown.standsFor other).other hcopy' hgiven']
      at hsame

/-! An example: a routine is registered, and a pointer is interned. -/

/-- Three letters. -/
def letters : CText := ⟨#[111, 110, 101], by simp⟩

/-- The routine and the pointer. -/
def started : List SymbolEvent := [.installed (.early ⟨[4096], [], []⟩), .interned 8192 letters]

theorem symbolOf_round_trip_started :
    let start := SymbolTable.empty .none fun serial => UInt64.ofNat (20480 + 64 * serial)
    let table := start.after started
    let given := start.lastGiven (fun _ => none) started
    (∃ raw target, (Symbol.id 1088).toRaw? = some raw ∧
      table.addressOf (Symbol.ofRaw raw) = .ok target ∧
      table.strings.StandsFor given 8192 target) ∧
    ∀ other, table.symbolOf other = .ok (.id 0) → ¬ table.strings.HasCopyAt other →
      given other = none →
      4096 = other := by
  intro start table given
  obtain ⟨hthere, hsame⟩ :=
    symbolOf_round_trip .none (fun serial => UInt64.ofNat (20480 + 64 * serial)) started
  obtain ⟨raw, target, hraw, -, -, htarget, hstands, -⟩ :=
    hthere 8192 (.id 1088) (by decide +kernel)
  refine ⟨⟨raw, target, hraw, htarget, hstands⟩, fun other hother hcopy hgiven => ?_⟩
  refine hsame 4096 other (.id 0) (by decide +kernel) hother ?_ (by decide +kernel) hcopy hgiven
  rw [StringTable.hasCopyAt_iff]
  decide +kernel

end SymbolTable

end CodeVault
