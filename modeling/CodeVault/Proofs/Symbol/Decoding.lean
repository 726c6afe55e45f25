import CodeVault.Proofs.Symbol.Renaming

/-!
# What words lead to

A word that another process wrote down may be of any range: an id of a bucket, an id of a string, or
a distance from the anchor, which may be greater than the anchor region is here.

* what a word leads to, range by range (`addressOf_ofRaw_eq_ok`): ids of buckets and of strings are
  looked up, and a distance is added to the anchor;
* **ids lead to addresses that the table knows, and distances do exactly as far as the region
  goes**; behind it every word is answered, whether anything is there or not (`known_of_addressOf`).
-/

namespace CodeVault

/-! ## 1. Words of every range -/

/-- An address at a distance from the anchor is inside the region exactly if the distance is. -/
theorem Anchor.contains_iff {anchor : Anchor} {addr : Address} {distance : Nat}
    (h : addr.toNat = anchor.start.toNat + distance) :
    anchor.contains addr = true ↔ distance < anchor.size := by
  rw [contains, distance?, Option.isSome_iff_exists]
  constructor
  · rintro ⟨found, hfound⟩
    have := Address.within?_eq_some.1 hfound
    omega
  · exact fun hlt => ⟨distance, Address.within?_eq_some.2 ⟨h, hlt⟩⟩

theorem Bucket.lt_stringBase_of_forId? {id : Nat} {bucket : Bucket}
    (h : Bucket.forId? id = some bucket) :
    id < stringBase := by
  have hrange : bucket.base + bucket.max ≤ stringBase := by cases bucket <;> decide
  exact Nat.lt_of_lt_of_le (Bucket.forId?_eq_some h).2 hrange

/-- An id leads to what is registered at its position. -/
theorem AddressTable.address_eq_ok {table : AddressTable} {id : Nat} {addr : Address} :
    table.address id = .ok addr ↔
      ∃ bucket, Bucket.forId? id = some bucket ∧
        (table.addresses bucket)[id - bucket.base]? = some addr := by
  unfold address
  cases Bucket.forId? id with
  | none => simp
  | some bucket =>
    dsimp only
    cases hat : (table.addresses bucket)[id - bucket.base]? with
    | some found => simp [hat]
    | none =>
      dsimp only
      split <;> simp [hat]

namespace SymbolTable

variable {table : SymbolTable} {raw : UInt32} {addr : Address}

/-- **What a word leads to**: what is registered at its position, the copy of its string, or what is
    at its distance from the anchor. -/
theorem addressOf_ofRaw_eq_ok : table.addressOf (Symbol.ofRaw raw) = .ok addr ↔
    (∃ bucket, Bucket.forId? raw.toNat = some bucket ∧
      (table.addresses.addresses bucket)[raw.toNat - bucket.base]? = some addr) ∨
    (stringBase ≤ raw.toNat ∧ raw.toNat < anchorBase ∧
      table.strings.addressOf? (raw.toNat - stringBase) = some addr) ∨
    anchorBase ≤ raw.toNat ∧ addr.toNat = table.anchor.start.toNat + (raw.toNat - anchorBase) := by
  have hlower : stringBase ≤ anchorBase := Nat.le_add_right _ _
  rw [← AddressTable.address_eq_ok]
  have hbucket : stringBase ≤ raw.toNat → table.addresses.address raw.toNat ≠ .ok addr :=
    fun hle hrun => by
    obtain ⟨bucket, hid, -⟩ := AddressTable.address_eq_ok.1 hrun
    exact Nat.not_lt.2 hle (Bucket.lt_stringBase_of_forId? hid)
  rcases Nat.lt_or_ge raw.toNat anchorBase with hid | hdistance
  · rw [ofRaw_of_lt hid, addressOf]
    rcases Nat.lt_or_ge raw.toNat stringBase with hlow | hstring
    · simp [Nat.not_le.2 hlow, Nat.not_le.2 hid, liftError_eq_ok]
    · simp only [hstring, if_true, Nat.not_le.2 hid, if_false, hbucket hstring, hid, true_and,
        false_and, or_false, false_or]
      cases table.strings.addressOf? (raw.toNat - stringBase) <;> simp
  · rw [ofRaw_of_le hdistance, addressOf, orOverflow_eq_ok, Address.after?_eq_some]
    simp [hbucket (Nat.le_trans hlower hdistance), Nat.not_lt.2 hdistance, hdistance]

/-! ## 2. What the table knows -/

/-- An address that a table knows: a copy of a string is there, a bucket holds it, or it is inside
    the anchor region. -/
def Knows (table : SymbolTable) (addr : Address) : Prop :=
  table.strings.HasCopyAt addr ∨ (∃ bucket, addr ∈ table.addresses.addresses bucket) ∨
    table.anchor.contains addr = true

/-- **An id leads to a copy of a string or to a registered address.** -/
theorem known_of_id (h : table.addressOf (Symbol.ofRaw raw) = .ok addr)
    (hid : raw.toNat < anchorBase) :
    table.strings.HasCopyAt addr ∨ ∃ bucket, addr ∈ table.addresses.addresses bucket := by
  rcases addressOf_ofRaw_eq_ok.1 h with ⟨bucket, -, hat⟩ | ⟨-, -, hcopy⟩ | ⟨hle, -⟩
  · exact .inr ⟨bucket, Array.mem_of_getElem? hat⟩
  · exact .inl ⟨_, hcopy⟩
  · exact absurd hid (Nat.not_lt.2 hle)

/-- **A distance leads into the region exactly if it is smaller than the region.** -/
theorem contains_of_distance (h : table.addressOf (Symbol.ofRaw raw) = .ok addr)
    (hdistance : anchorBase ≤ raw.toNat) :
    addr.toNat = table.anchor.start.toNat + (raw.toNat - anchorBase) ∧
      (table.anchor.contains addr = true ↔ raw.toNat < anchorBase + table.anchor.size) := by
  have hplace : addr.toNat = table.anchor.start.toNat + (raw.toNat - anchorBase) := by
    rcases addressOf_ofRaw_eq_ok.1 h with ⟨bucket, hid, -⟩ | ⟨-, hlt, -⟩ | ⟨-, hplace⟩
    · have hlow := Bucket.lt_stringBase_of_forId? hid
      exact absurd hlow (Nat.not_lt.2 (Nat.le_trans (Nat.le_add_right _ _) hdistance))
    · exact absurd hlt (Nat.not_lt.2 hdistance)
    · exact hplace
  refine ⟨hplace, (Anchor.contains_iff hplace).trans ?_⟩
  omega

/-- No distance is refused: the word leads somewhere, or the sum stops the process. -/
theorem addressOf_distance (hdistance : anchorBase ≤ raw.toNat) (cause : SymbolError) :
    table.addressOf (Symbol.ofRaw raw) ≠ .error (.error cause) := by
  intro h
  rw [ofRaw_of_le hdistance, addressOf] at h
  cases hplace : table.anchor.start.after? (raw.toNat - anchorBase) with
  | some addr =>
    rw [hplace] at h
    cases h
  | none =>
    rw [hplace] at h
    cases h

/-- **Words lead to addresses that the table knows, except distances that are greater than the
    anchor region.** In every process, whatever was registered, interned and loaded: an id leads to
    a copy of a string or to a registered address; a distance leads to what is so far behind the
    anchor, which is inside the region exactly if the distance is smaller than the region; and no
    distance is refused. So a word leads to an address that the table knows exactly if it is below
    those of greater distances, or if what is there happens to be known otherwise. -/
theorem known_of_addressOf (anchor : Anchor) (placement : Nat → Address)
    (events : List SymbolEvent) :
    let table := (empty anchor placement).after events
    (∀ raw addr, table.addressOf (Symbol.ofRaw raw) = .ok addr →
      (raw.toNat < anchorBase →
        table.strings.HasCopyAt addr ∨ ∃ bucket, addr ∈ table.addresses.addresses bucket) ∧
      (anchorBase ≤ raw.toNat → addr.toNat = anchor.start.toNat + (raw.toNat - anchorBase) ∧
        (anchor.contains addr = true ↔ raw.toNat < anchorBase + anchor.size)) ∧
      (table.Knows addr ↔ raw.toNat < anchorBase + anchor.size ∨
        table.strings.HasCopyAt addr ∨ ∃ bucket, addr ∈ table.addresses.addresses bucket)) ∧
    ∀ raw, anchorBase ≤ raw.toNat →
    ∀ cause, table.addressOf (Symbol.ofRaw raw) ≠ .error (.error cause) := by
  intro table
  have hanchor : table.anchor = anchor := anchor_after (empty anchor placement) events
  refine ⟨fun raw addr h => ?_, fun raw hdistance cause => addressOf_distance hdistance cause⟩
  have hregion := fun hdistance => hanchor ▸ contains_of_distance h hdistance
  refine ⟨known_of_id h, hregion, fun hknown => ?_, ?_⟩
  · rcases hknown with hcopy | hregistered | hinside
    · exact .inr (.inl hcopy)
    · exact .inr (.inr hregistered)
    · rcases Nat.lt_or_ge raw.toNat anchorBase with hid | hdistance
      · exact .inl (Nat.lt_of_lt_of_le hid (Nat.le_add_right _ _))
      · exact .inl ((hregion hdistance).2.1 (hanchor ▸ hinside))
  · intro hplace
    rcases hplace with hnear | hcopy | hregistered
    · rcases Nat.lt_or_ge raw.toNat anchorBase with hid | hdistance
      · exact (known_of_id h hid).imp_right .inl
      · exact .inr (.inr (hanchor ▸ (hregion hdistance).2.2 hnear))
    · exact .inl hcopy
    · exact .inr (.inl hregistered)

/-! An example: the first distance behind a region of one page. -/

/-- One page. -/
def page : Anchor := ⟨1048576, 4096⟩

theorem known_of_addressOf_behind :
    let table := (empty page fun serial => UInt64.ofNat (20480 + 64 * serial)).after started
    table.addressOf (Symbol.ofRaw 6208) = .ok 1052672 ∧ ¬ table.Knows 1052672 ∧
    table.addressOf (Symbol.ofRaw 6207) = .ok 1052671 ∧ table.Knows 1052671 ∧ table.Knows 4096 := by
  intro table
  obtain ⟨hleads, -⟩ :=
    known_of_addressOf page (fun serial => UInt64.ofNat (20480 + 64 * serial)) started
  have hbehind : table.addressOf (Symbol.ofRaw 6208) = .ok 1052672 := by decide +kernel
  have hlast : table.addressOf (Symbol.ofRaw 6207) = .ok 1052671 := by decide +kernel
  have hroutine : table.addressOf (Symbol.ofRaw 0) = .ok 4096 := by decide +kernel
  refine ⟨hbehind, fun hknown => ?_, hlast, (hleads _ _ hlast).2.2.2 (.inl (by decide)),
    (hleads _ _ hroutine).2.2.2 (.inl (by decide))⟩
  rcases (hleads _ _ hbehind).2.2.1 hknown with hnear | hcopy | ⟨bucket, hregistered⟩
  · exact absurd hnear (by decide)
  · rw [StringTable.hasCopyAt_iff] at hcopy
    exact absurd hcopy (by decide +kernel)
  · cases bucket <;> exact absurd hregistered (by decide +kernel)

end SymbolTable

end CodeVault
