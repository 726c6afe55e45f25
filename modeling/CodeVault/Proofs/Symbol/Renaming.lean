import CodeVault.Proofs.Symbol.Addresses

/-!
# Symbols of a process whose addresses are others

Two processes that make the same registrations and intern the same strings need not agree on any
address. Let an injective `ρ` lead from the addresses of the one to those of the other.

* `rename ρ` is what a table of the one process is in the other;
* **events that are renamed lead to the table that is renamed** (`SymbolTable.after_rename`):
  registering and interning ask of addresses only which of them are equal;
* **an address has the symbol in the one process that its name has in the other**
  (`symbolOf_rename`), if distances from the anchor are kept.
-/

namespace CodeVault

open Function

variable {ρ : Address → Address}

/-! ## 1. Registered addresses -/

/-- The same batch with other addresses. -/
def AddressSet.rename (ρ : Address → Address) (batch : AddressSet) : AddressSet :=
  ⟨batch.externals.map ρ, batch.stubs.map ρ, batch.sharedBlobs.map ρ⟩

/-- The same registration with other addresses. -/
def Installation.rename (ρ : Address → Address) : Installation → Installation
  | .early batch => .early (batch.rename ρ)
  | .runtime batch => .runtime (batch.rename ρ)
  | .tier which blobs => .tier which (blobs.map ρ)

theorem Installation.batch_rename (installation : Installation) :
    (installation.rename ρ).batch = installation.batch := by
  cases installation <;> rfl

theorem AddressSet.listed_rename (batch : AddressSet) :
    (batch.rename ρ).listed = batch.listed.map (Prod.map id ρ) := by
  simp only [AddressSet.rename, AddressSet.listed, List.map_append, List.map_map, comp_def,
    Prod.map_apply, id]

theorem Installation.listed_rename (installation : Installation) :
    (installation.rename ρ).listed = installation.listed.map (Prod.map id ρ) := by
  cases installation with
  | early batch => exact batch.listed_rename
  | runtime batch => exact batch.listed_rename
  | tier which blobs => simp only [rename, listed, List.map_map, comp_def, Prod.map_apply, id]

/-- The same error about another address. -/
def SymbolError.rename (ρ : Address → Address) : SymbolError → SymbolError
  | .ambiguous addr first second => .ambiguous (ρ addr) first second
  | .incomplete addr phase => .incomplete (ρ addr) phase
  | .unknownAddress addr => .unknownAddress (ρ addr)
  | cause => cause

namespace Roster

/-- The roster of other addresses at the same positions. -/
def rename (ρ : Address → Address) (roster : Roster) : Roster :=
  (roster.addresses.toList.map ρ).foldl add empty

theorem addresses_foldl_add (addrs : List Address) (roster : Roster) :
    (addrs.foldl add roster).addresses = roster.addresses ++ addrs.toArray := by
  induction addrs generalizing roster with
  | nil => exact Array.append_empty.symm
  | cons addr addrs ih =>
    rw [List.foldl_cons, ih]
    simp [add]

theorem addresses_rename (roster : Roster) :
    (roster.rename ρ).addresses = roster.addresses.map ρ := by
  rw [rename, addresses_foldl_add, ← Array.toList_map, Array.toArray_toList]
  exact Array.empty_append

theorem add_rename (roster : Roster) (addr : Address) :
    (roster.rename ρ).add (ρ addr) = (roster.add addr).rename ρ := by
  simp only [rename, add, Array.toList_push, List.map_append, List.map_cons, List.map_nil,
    List.foldl_append, List.foldl_cons, List.foldl_nil]

end Roster

namespace AddressTable

/-- The table with other addresses at the same positions. -/
def rename (ρ : Address → Address) (table : AddressTable) : AddressTable :=
  { table with
    externals := table.externals.rename ρ
    stubs := table.stubs.rename ρ
    sharedBlobs := table.sharedBlobs.rename ρ
    tier1Blobs := table.tier1Blobs.rename ρ
    tier2Blobs := table.tier2Blobs.rename ρ }

@[simp] theorem addresses_rename (table : AddressTable) (bucket : Bucket) :
    (table.rename ρ).addresses bucket = (table.addresses bucket).map ρ := by
  cases bucket <;> exact Roster.addresses_rename _

theorem push_rename (table : AddressTable) (bucket : Bucket) (addr : Address) :
    (table.rename ρ).push bucket (ρ addr) = (table.push bucket addr).rename ρ := by
  cases bucket <;> simp only [push, rename, Roster.add_rename]

theorem otherHolder?_rename (hρ : Injective ρ) (table : AddressTable) (bucket : Bucket)
    (addr : Address) :
    (table.rename ρ).otherHolder? bucket (ρ addr) = table.otherHolder? bucket addr := by
  have hcontains : ∀ other,
      ((table.rename ρ).index other).contains (ρ addr) = (table.index other).contains addr := by
    intro other
    rw [Bool.eq_iff_iff, contains_index, contains_index, addresses_rename, Array.mem_map]
    exact ⟨fun ⟨_, hmem, heq⟩ => hρ heq ▸ hmem, fun hmem => ⟨addr, hmem, rfl⟩⟩
  simp only [otherHolder?, hcontains]

/-- **An address has the id in the one process that its name has in the other.** -/
theorem lookup?_rename (hρ : Injective ρ) (table : AddressTable) (addr : Address) :
    (table.rename ρ).lookup? (ρ addr) = table.lookup? addr := by
  have hposition : ∀ bucket,
      (table.rename ρ).position? bucket (ρ addr) = table.position? bucket addr := by
    intro bucket
    rw [position?_eq, position?_eq, addresses_rename, Array.findIdx?_map]
    exact congrArg (Array.findIdx? · _) (funext fun _ => hρ.beq_eq)
  simp only [lookup?, hposition]

theorem refusal?_rename (hρ : Injective ρ) (table : AddressTable) (bucket : Bucket)
    (addr : Address) :
    (table.rename ρ).refusal? bucket (ρ addr) = (table.refusal? bucket addr).map (·.rename ρ) := by
  unfold refusal?
  rw [otherHolder?_rename hρ, addresses_rename, Array.size_map]
  cases table.otherHolder? bucket addr with
  | some other => rfl
  | none =>
    dsimp only
    split <;> rfl

/-- The same outcome with other addresses, in the table and in the refusal. -/
def renameOutcome (ρ : Address → Address) :
    EStateM.Result SymbolError AddressTable Unit → EStateM.Result SymbolError AddressTable Unit
  | .ok _ table => .ok () (table.rename ρ)
  | .error cause table => .error (cause.rename ρ) (table.rename ρ)

theorem stateOf_renameOutcome (outcome : EStateM.Result SymbolError AddressTable Unit) :
    stateOf (renameOutcome ρ outcome) = (stateOf outcome).rename ρ := by
  cases outcome <;> rfl

theorem causeOf?_renameOutcome (outcome : EStateM.Result SymbolError AddressTable Unit) :
    causeOf? (renameOutcome ρ outcome) = (causeOf? outcome).map (·.rename ρ) := by
  cases outcome <;> rfl

theorem enter_rename (hρ : Injective ρ) (items : List (Bucket × Address)) (table : AddressTable) :
    enter (items.map (Prod.map id ρ)) (table.rename ρ) = renameOutcome ρ (enter items table) := by
  induction items generalizing table with
  | nil => rfl
  | cons item items ih =>
    obtain ⟨bucket, addr⟩ := item
    rw [List.map_cons, Prod.map_apply, id]
    unfold enter
    rw [refusal?_rename hρ, push_rename]
    cases table.refusal? bucket addr with
    | some cause => rfl
    | none => exact ih _

theorem closing_rename (batch : Batch) (outcome : EStateM.Result SymbolError AddressTable Unit) :
    closing batch (renameOutcome ρ outcome) = renameOutcome ρ (closing batch outcome) := by
  cases outcome with
  | ok u table => cases batch <;> rfl
  | error cause table => rfl

/-- **A registration of other addresses comes to the same with a table of other addresses.** -/
theorem install_rename (hρ : Injective ρ) (installation : Installation) (table : AddressTable) :
    install (installation.rename ρ) (table.rename ρ) =
      renameOutcome ρ (install installation table) := by
  have hturn : (table.rename ρ).admits installation.batch = table.admits installation.batch := by
    cases installation with
    | tier which blobs => cases which <;> rfl
    | _ => rfl
  rw [install_eq, install_eq, installation.batch_rename, installation.listed_rename, hturn,
    enter_rename hρ, closing_rename]
  split <;> rfl

end AddressTable

/-! ## 2. Interned strings -/

/-- Renamed keys are found where the keys were. -/
theorem lookup_map_injective {α β γ : Type} [BEq α] [LawfulBEq α] [BEq β] [LawfulBEq β] {f : α → β}
    (hf : Injective f) (entries : List (α × γ)) (key : α) :
    (entries.map fun entry => (f entry.1, entry.2)).lookup (f key) = entries.lookup key := by
  induction entries with
  | nil => rfl
  | cons entry entries ih =>
    obtain ⟨first, value⟩ := entry
    rw [List.map_cons, List.lookup_cons, List.lookup_cons, hf.beq_eq, ih]

namespace StringTable

/-- The table with copies at other addresses, and other pointers that stand for them. -/
def rename (ρ : Address → Address) (table : StringTable) : StringTable :=
  { table with
    placement := fun serial => ρ (table.placement serial)
    aliases := table.aliases.map fun entry => (ρ entry.1, entry.2) }

/-- **A pointer stands for the id in the one process that its name stands for in the other.** -/
theorem indexOfAddress?_rename (hρ : Injective ρ) (table : StringTable) (addr : Address) :
    (table.rename ρ).indexOfAddress? (ρ addr) = table.indexOfAddress? addr := by
  have hcopy : (table.rename ρ).indexOfCopy? (ρ addr) = table.indexOfCopy? addr :=
    congrArg (Array.findIdx? · table.copies) (funext fun _ => hρ.beq_eq)
  have halias : (table.rename ρ).aliases.lookup (ρ addr) = table.aliases.lookup addr :=
    lookup_map_injective hρ table.aliases addr
  rw [indexOfAddress?, hcopy, halias]
  rfl

theorem addAlias_rename (table : StringTable) (pointer : Address) (index : Nat) :
    (table.rename ρ).addAlias (ρ pointer) index = (table.addAlias pointer index).rename ρ := by
  unfold addAlias
  rw [show (table.rename ρ).copies = table.copies from rfl]
  cases table.copies[index]? <;> rfl

/-- **Interning at another address answers the same id.** -/
theorem intern_rename (hρ : Injective ρ) (table : StringTable) (pointer : Address) (text : CText) :
    (table.rename ρ).intern (ρ pointer) text =
      (table.intern pointer text).map fun (index, after) => (index, after.rename ρ) := by
  unfold intern
  rw [indexOfAddress?_rename hρ, show (table.rename ρ).text? = table.text? from rfl,
    show (table.rename ρ).indexOfText? text = table.indexOfText? text from rfl,
    show (table.rename ρ).size = table.size from rfl]
  cases (table.indexOfAddress? pointer).filter fun index => table.text? index == some text with
  | some index => rfl
  | none =>
    cases table.indexOfText? text with
    | some index =>
      exact congrArg (fun after => Except.ok (index, after)) (addAlias_rename table pointer index)
    | none =>
      dsimp only
      split
      · rfl
      · exact congrArg (fun after => Except.ok (table.size, after))
          (addAlias_rename (table.push text) pointer table.size)

/-- Loading does not look at addresses. -/
theorem load_rename (table : StringTable) (strings : List CText) :
    (table.rename ρ).load strings = (table.load strings).map (·.rename ρ) := by
  unfold load
  rw [show (table.rename ρ).conflict? strings = table.conflict? strings from rfl,
    show (table.rename ρ).size = table.size from rfl, show (table.rename ρ).pinned =
      table.pinned from rfl]
  dsimp only
  split
  · rfl
  · cases table.conflict? strings <;> rfl

end StringTable

/-! ## 3. The symbols of a process -/

/-- The anchor at another address. -/
def Anchor.rename (ρ : Address → Address) (anchor : Anchor) : Anchor :=
  { anchor with start := ρ anchor.start }

/-- The same event with other addresses. -/
def SymbolEvent.rename (ρ : Address → Address) : SymbolEvent → SymbolEvent
  | .installed installation => .installed (installation.rename ρ)
  | .interned pointer text => .interned (ρ pointer) text
  | .loaded strings => .loaded strings

namespace SymbolTable

/-- The table with other addresses. -/
def rename (ρ : Address → Address) (table : SymbolTable) : SymbolTable :=
  ⟨table.addresses.rename ρ, table.strings.rename ρ, table.anchor.rename ρ⟩

/-- **An event with other addresses does the same with a table of other addresses.** -/
theorem apply_rename (hρ : Injective ρ) (table : SymbolTable) (event : SymbolEvent) :
    (table.rename ρ).apply (event.rename ρ) = (table.apply event).rename ρ := by
  cases event with
  | installed installation =>
    have hinstall := congrArg stateOf (AddressTable.install_rename hρ installation table.addresses)
    rw [AddressTable.stateOf_renameOutcome] at hinstall
    rw [install_eq, SymbolEvent.rename, install_eq]
    exact congrArg (SymbolTable.mk · _ _) hinstall
  | interned pointer text =>
    have hintern := StringTable.intern_rename hρ table.strings pointer text
    simp only [SymbolEvent.rename, apply, intern]
    rw [show (table.rename ρ).strings = table.strings.rename ρ from rfl, hintern]
    cases table.strings.intern pointer text <;> rfl
  | loaded strings =>
    have hload := StringTable.load_rename (ρ := ρ) table.strings strings
    simp only [SymbolEvent.rename, apply, loadStrings]
    rw [show (table.rename ρ).strings = table.strings.rename ρ from rfl, hload]
    cases table.strings.load strings <;> rfl

/-- **Events with other addresses lead to the table with other addresses.** -/
theorem after_rename (hρ : Injective ρ) (table : SymbolTable) (events : List SymbolEvent) :
    (table.rename ρ).after (events.map (·.rename ρ)) = (table.after events).rename ρ := by
  induction events generalizing table with
  | nil => rfl
  | cons event events ih =>
    rw [List.map_cons, after_cons, after_cons, apply_rename hρ, ih]

/-- Nothing moves the anchor. -/
theorem anchor_after (table : SymbolTable) (events : List SymbolEvent) :
    (table.after events).anchor = table.anchor := by
  induction events generalizing table with
  | nil => rfl
  | cons event events ih =>
    rw [after_cons, ih]
    cases event with
    | installed installation => rw [install_eq]
    | interned pointer text =>
      rcases table.apply_interned pointer text with ⟨_, _, -, happly⟩ | ⟨-, -, happly⟩ <;>
        rw [happly]
    | loaded strings =>
      rcases table.apply_loaded strings with ⟨_, -, happly⟩ | ⟨-, happly⟩ <;> rw [happly]

theorem empty_rename (anchor : Anchor) (placement : Nat → Address) :
    (empty anchor placement).rename ρ = empty (anchor.rename ρ) fun serial =>
      ρ (placement serial) := by
  rfl

/-- **An address has the symbol in the one process that its name has in the other**, if it is as far
    from the anchor. -/
theorem symbolOf_rename (hρ : Injective ρ) {table : SymbolTable} {addr : Address} {symbol : Symbol}
    (hanchor : ∀ distance, table.anchor.distance? addr = some distance →
      (table.anchor.rename ρ).distance? (ρ addr) = some distance)
    (h : table.symbolOf addr = .ok symbol) : (table.rename ρ).symbolOf (ρ addr) = .ok symbol := by
  have hstring : (table.rename ρ).strings.indexOfAddress? (ρ addr) = _ :=
    StringTable.indexOfAddress?_rename hρ table.strings addr
  have hlookup : (table.rename ρ).addresses.lookup? (ρ addr) = _ :=
    AddressTable.lookup?_rename hρ table.addresses addr
  rw [symbolOf_eq_ok, hstring, hlookup]
  refine (symbolOf_eq_ok.1 h).imp_right (And.imp_right (Or.imp_right (And.imp_right ?_)))
  exact fun ⟨distance, hdistance, hnear⟩ => ⟨distance, hanchor distance hdistance, hnear⟩

end SymbolTable

end CodeVault
