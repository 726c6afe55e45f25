import CodeVault.Proofs.Symbol.Registration
import CodeVault.Proofs.Symbol.Strings
import CodeVault.Symbol.Table

/-!
# Symbols in the course of a process

A table of symbols comes about by registrations, by interning, and by loading the strings of earlier
runs (`SymbolEvent`), in any order and with any outcome.

* every table that comes about so is `Sound`;
* **in a sound table the word of an address leads back to what stands for the address**
  (`addressOf_ofRaw`).
-/

namespace CodeVault

/-! ## 1. Bounds of buckets -/

namespace AddressTable

/-- No bucket holds more than it may. -/
def Bounded (table : AddressTable) : Prop :=
  ∀ bucket : Bucket, (table.addresses bucket).size ≤ bucket.max

theorem bounded_empty : empty.Bounded := by
  intro bucket
  cases bucket <;> exact Nat.zero_le _

theorem stays_bounded : Stays Bounded where
  push table bucket addr h hfree other := by
    rw [addresses_push]
    split
    · rename_i heq
      subst heq
      rw [Array.size_push]
      exact (refusal?_eq_none.1 hfree).2
    · exact h other
  same table other hsame h bucket := by
    rw [hsame]
    exact h bucket

/-- **Whatever comes of a registration, no bucket holds more than it may.** -/
theorem preserves_install (installation : Installation) :
    Preserves Bounded (install installation) :=
  stays_bounded.install installation

/-- **The address of an id that was found for an address is the address.** -/
theorem address_of_lookup? {table : AddressTable} {addr : Address} {id : Nat}
    (hbound : table.Bounded) (h : table.lookup? addr = some id) :
    id < stringBase ∧ table.address id = .ok addr := by
  obtain ⟨bucket, -, hposition⟩ := List.exists_of_findSome?_eq_some h
  obtain ⟨position, hfound, rfl⟩ := Option.map_eq_some_iff.1 hposition
  obtain ⟨hat, -⟩ := position?_eq_some.1 hfound
  have hlt := (Array.getElem?_eq_some_iff.1 hat).1
  have hmax := hbound bucket
  have hid : Bucket.forId? (bucket.base + position) = some bucket :=
    Bucket.forId?_base_add (by omega)
  refine ⟨?_, ?_⟩
  · have : bucket.base + bucket.max ≤ stringBase := by cases bucket <;> decide
    omega
  · simp only [address, hid, Nat.add_sub_cancel_left, hat]

end AddressTable

/-! ## 2. What happens to the symbols of a process -/

/-- What may happen to the symbols of a process. -/
inductive SymbolEvent where
  | installed (installation : Installation)
  | interned (pointer : Address) (text : CText)
  | loaded (strings : List CText)

namespace StringTable

/-- The address that stands for a pointer: that of the copy it stands for, or its own. -/
def standIn (table : StringTable) (addr : Address) : Address :=
  ((table.indexOfAddress? addr).bind table.addressOf?).getD addr

end StringTable

namespace SymbolTable

/-- The table after an event. What is refused leaves what it did before. -/
def apply (table : SymbolTable) : SymbolEvent → SymbolTable
  | .installed installation => stateOf (install installation table)
  | .interned pointer text =>
    match table.intern pointer text with
    | .ok (_, after) => after
    | .error _ => table
  | .loaded strings =>
    match table.loadStrings strings with
    | .ok after => after
    | .error _ => table

/-- The table after events. -/
def after (table : SymbolTable) (events : List SymbolEvent) : SymbolTable :=
  events.foldl apply table

@[simp] theorem after_nil (table : SymbolTable) : table.after [] = table := rfl

@[simp] theorem after_cons (table : SymbolTable) (event : SymbolEvent) (events : List SymbolEvent) :
    table.after (event :: events) = (table.apply event).after events := rfl

theorem after_append (table : SymbolTable) (earlier later : List SymbolEvent) :
    table.after (earlier ++ later) = (table.after earlier).after later :=
  List.foldl_append ..

/-- Some process has this table at some time. -/
def Reached (table : SymbolTable) : Prop :=
  ∃ anchor placement events, table = (empty anchor placement).after events

/-- Ids stay within the ranges that they were given. -/
structure Sound (table : SymbolTable) : Prop where
  strings : table.strings.Sound
  addresses : table.addresses.Bounded

theorem Sound.apply {table : SymbolTable} (h : table.Sound) (event : SymbolEvent) :
    (table.apply event).Sound := by
  cases event with
  | installed installation =>
    have hkept := AddressTable.preserves_install installation h.addresses
    simp only [SymbolTable.apply, install]
    cases hrun : AddressTable.install installation table.addresses with
    | ok u addresses => exact ⟨h.strings, by rwa [hrun] at hkept⟩
    | error e addresses => exact ⟨h.strings, by rwa [hrun] at hkept⟩
  | interned pointer text =>
    simp only [SymbolTable.apply, intern]
    cases hrun : table.strings.intern pointer text with
    | ok result => exact ⟨h.strings.intern hrun, h.addresses⟩
    | error e => exact h
  | loaded strings =>
    simp only [SymbolTable.apply, loadStrings]
    cases hrun : table.strings.load strings with
    | ok loaded => exact ⟨h.strings.load hrun, h.addresses⟩
    | error e => exact h

theorem Sound.after {table : SymbolTable} (h : table.Sound) (events : List SymbolEvent) :
    (table.after events).Sound := by
  induction events generalizing table with
  | nil => exact h
  | cons event events ih => exact ih (h.apply event)

/-- **Every table that a process comes to is sound.** -/
theorem Reached.sound {table : SymbolTable} (h : table.Reached) : table.Sound := by
  obtain ⟨anchor, placement, events, rfl⟩ := h
  exact Sound.after ⟨StringTable.sound_empty placement, AddressTable.bounded_empty⟩ events

/-! ## 3. Addresses and back -/

theorem toRaw?_eq_some {symbol : Symbol} {raw : UInt32} (h : symbol.toRaw? = some raw) :
    raw.toNat = symbol.toNat := by
  unfold Symbol.toRaw? at h
  split at h
  · rename_i hlt
    cases h
    exact UInt32.toNat_ofNat_of_lt' hlt
  · cases h

theorem ofRaw_of_lt {raw : UInt32} (h : raw.toNat < anchorBase) :
    Symbol.ofRaw raw = .id raw.toNat :=
  if_neg (Nat.not_le.2 h)

theorem ofRaw_of_le {raw : UInt32} (h : anchorBase ≤ raw.toNat) :
    Symbol.ofRaw raw = .anchorDistance (raw.toNat - anchorBase) :=
  if_pos h

/-- The id of a string leads to its copy. -/
theorem addressOf_string {table : SymbolTable} {addr : Address} {index : Nat}
    (hsound : table.strings.Sound) (h : table.strings.indexOfAddress? addr = some index) :
    stringBase + index < anchorBase ∧
      table.addressOf (.id (stringBase + index)) = .ok (table.strings.standIn addr) := by
  have hlt : index < table.strings.copies.size := StringTable.lt_size_of_indexOfAddress? h
  have hid : stringBase + index < anchorBase := by
    have hmax : table.strings.copies.size ≤ maxStrings := hsound.size_le
    simp only [anchorBase]
    omega
  have hcopy : table.strings.copies[index]? = some table.strings.copies[index] :=
    Array.getElem?_eq_getElem hlt
  refine ⟨hid, ?_⟩
  simp only [addressOf, Nat.le_add_right, if_true, Nat.not_le.2 hid, if_false,
    Nat.add_sub_cancel_left, StringTable.addressOf?, hcopy, Option.map_some, StringTable.standIn, h,
    Option.bind_some, Option.getD_some]

/-- **Which symbol an address has**: that of the string it is known by, if there is one; else its
    id; else its distance from the anchor, if that is not too great. -/
theorem symbolOf_eq_ok {table : SymbolTable} {addr : Address} {symbol : Symbol} :
    table.symbolOf addr = .ok symbol ↔
      (∃ index, table.strings.indexOfAddress? addr = some index ∧
        symbol = .id (stringBase + index)) ∨
      table.strings.indexOfAddress? addr = none ∧
        ((∃ id, table.addresses.lookup? addr = some id ∧ symbol = .id id) ∨
          table.addresses.lookup? addr = none ∧ ∃ distance,
            table.anchor.distance? addr = some distance ∧
            distance ≤ maxAnchorDistance ∧ symbol = .anchorDistance distance) := by
  unfold symbolOf
  cases table.strings.indexOfAddress? addr with
  | some index => simp [eq_comm]
  | none =>
    cases table.addresses.lookup? addr with
    | some id => simp [eq_comm]
    | none =>
      cases table.anchor.distance? addr with
      | some distance =>
        by_cases hfar : maxAnchorDistance < distance
        · simp [hfar, Nat.not_le.2 hfar]
        · simp [hfar, Nat.le_of_not_lt hfar, eq_comm]
      | none =>
        by_cases hphase : table.phase = .complete <;> simp [hphase]

/-- An address whose symbol is in the range of strings is known by that string. -/
theorem indexOfAddress?_of_symbolOf {table : SymbolTable} {addr : Address} {symbol : Symbol}
    {index : Nat} (hsound : table.Sound) (h : table.symbolOf addr = .ok symbol)
    (hnum : symbol.toNat = stringBase + index) (hindex : index < maxStrings) :
    table.strings.indexOfAddress? addr = some index := by
  rcases symbolOf_eq_ok.1 h with
    ⟨other, hstring, rfl⟩ | ⟨-, ⟨id, hlookup, rfl⟩ | ⟨-, distance, -, -, rfl⟩⟩
  · rw [hstring, Nat.add_left_cancel hnum]
  · obtain ⟨hlt, -⟩ := AddressTable.address_of_lookup? hsound.addresses hlookup
    simp only [Symbol.toNat] at hnum
    omega
  · simp only [Symbol.toNat, anchorBase] at hnum
    omega

/-- An address that no string is known by stands for itself. -/
theorem standIn_of_none {table : StringTable} {addr : Address}
    (h : table.indexOfAddress? addr = none) :
    table.standIn addr = addr := by
  simp only [StringTable.standIn, h, Option.bind_none, Option.getD_none]

/-- **The word of an address leads back to what stands for the address**, and the greatest word is
    the word of none. -/
theorem addressOf_ofRaw {table : SymbolTable} {addr : Address} {symbol : Symbol} {raw : UInt32}
    (hsound : table.Sound) (h : table.symbolOf addr = .ok symbol)
    (hraw : symbol.toRaw? = some raw) :
    raw.toNat < wordSpace - 1 ∧
      table.addressOf (Symbol.ofRaw raw) = .ok (table.strings.standIn addr) := by
  have hnum := toRaw?_eq_some hraw
  have hbelow : anchorBase < wordSpace - 1 := by decide
  rcases symbolOf_eq_ok.1 h with
    ⟨index, hindex, rfl⟩ | ⟨hindex, ⟨id, hlookup, rfl⟩ | ⟨-, distance, hdistance, hnear, rfl⟩⟩
  · obtain ⟨hid, hback⟩ := addressOf_string hsound.strings hindex
    simp only [Symbol.toNat] at hnum
    refine ⟨by omega, ?_⟩
    rw [ofRaw_of_lt (by omega), hnum, hback]
  · obtain ⟨hlt, hback⟩ := AddressTable.address_of_lookup? hsound.addresses hlookup
    have hid : id < anchorBase := Nat.lt_of_lt_of_le hlt (Nat.le_add_right _ _)
    simp only [Symbol.toNat] at hnum
    refine ⟨by omega, ?_⟩
    rw [ofRaw_of_lt (by omega), hnum, standIn_of_none hindex]
    simp only [addressOf, Nat.not_le.2 hlt, if_false, hback, liftError]
  · have hlast : maxAnchorDistance + anchorBase < wordSpace - 1 := by decide
    simp only [Symbol.toNat] at hnum
    refine ⟨by omega, ?_⟩
    rw [ofRaw_of_le (by omega), hnum, Nat.add_sub_cancel_left, standIn_of_none hindex]
    simp only [addressOf, Address.after?_of_within? hdistance, orOverflow]

end SymbolTable

end CodeVault
