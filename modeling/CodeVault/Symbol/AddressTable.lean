import CodeVault.Symbol.Error
import Std.Data.TreeMap.Lemmas

/-!
# The table of registered addresses

A process registers its addresses phase by phase. An id is a position: two processes that register
the same things in the same order agree on every id, whatever their addresses are.

* `installEarly`, `installRuntime` and `installTier` register one batch each; an address that is
  refused ends the batch, and those before it stay registered;
* an address registered twice in one bucket takes two positions and is known by the first
  (`Roster`);
* `lookup?` goes from an address to its id, `address` from an id back.
-/

namespace CodeVault

/-- One batch of addresses. -/
structure AddressSet where
  externals : List Address
  stubs : List Address
  sharedBlobs : List Address
  deriving DecidableEq, Repr

/-- What a process registers at one time. -/
inductive Installation where
  | early (batch : AddressSet)
  | runtime (batch : AddressSet)
  | tier (tier : Tier) (blobs : List Address)
  deriving DecidableEq, Repr

/-! ## 1. Addresses by position -/

/-- The addresses of one bucket in the order in which they were registered, and an index over them:
    it has the first position of every address that is there. -/
structure Roster where
  addresses : Array Address
  index : Std.TreeMap Address Nat
  index_eq : ∀ addr, index[addr]? = addresses.findIdx? (· == addr)

namespace Roster

/-- The roster without an address. -/
def empty : Roster := ⟨#[], ∅, fun _ => Std.TreeMap.getElem?_emptyc.trans Array.findIdx?_empty.symm⟩

/-- The index has the first positions also when one more address is at the end: one that is new gets
    its position, one that is there keeps its own. -/
theorem index_add (roster : Roster) (added addr : Address) :
    (roster.index.insertIfNew added roster.addresses.size)[addr]? =
      (roster.addresses.push added).findIdx? (· == addr) := by
  rw [Std.TreeMap.getElem?_insertIfNew, Array.findIdx?_push, ← roster.index_eq addr]
  by_cases hsame : added = addr
  · subst hsame
    simp only [Std.TreeMap.mem_iff_isSome_getElem?]
    cases roster.index[added]? <;> simp
  · simp [hsame]

/-- The roster with one more address at the end. -/
def add (roster : Roster) (addr : Address) : Roster where
  addresses := roster.addresses.push addr
  index := roster.index.insertIfNew addr roster.addresses.size
  index_eq := roster.index_add addr

/-- An address is in the index exactly if it is there. -/
theorem contains_index (roster : Roster) (addr : Address) :
    roster.index.contains addr = true ↔ addr ∈ roster.addresses := by
  rw [Std.TreeMap.contains_eq_isSome_getElem?, roster.index_eq, Array.findIdx?_isSome]
  simp [Array.mem_iff_getElem]

end Roster

/-- The registered addresses of every bucket, the phase, and which tiers have registered. -/
structure AddressTable where
  phase : Phase
  tierOne : Bool
  tierTwo : Bool
  externals : Roster
  stubs : Roster
  sharedBlobs : Roster
  tier1Blobs : Roster
  tier2Blobs : Roster

namespace AddressTable

/-! ## 2. Buckets of a table -/

/-- The table of a process that has registered nothing. -/
def empty : AddressTable :=
  ⟨.empty, false, false, .empty, .empty, .empty, .empty, .empty⟩

/-- The roster of a bucket. -/
def roster (table : AddressTable) : Bucket → Roster
  | .external => table.externals
  | .stub => table.stubs
  | .sharedBlob => table.sharedBlobs
  | .tier1Blob => table.tier1Blobs
  | .tier2Blob => table.tier2Blobs

/-- The addresses of a bucket, by position. -/
def addresses (table : AddressTable) (bucket : Bucket) : Array Address :=
  (table.roster bucket).addresses

/-- The index of a bucket. -/
def index (table : AddressTable) (bucket : Bucket) : Std.TreeMap Address Nat :=
  (table.roster bucket).index

/-- An address is in the index of a bucket exactly if the bucket holds it. -/
theorem contains_index (table : AddressTable) (bucket : Bucket) (addr : Address) :
    (table.index bucket).contains addr = true ↔ addr ∈ table.addresses bucket :=
  (table.roster bucket).contains_index addr

/-- The table with one more address at the end of a bucket. -/
def push (table : AddressTable) (bucket : Bucket) (addr : Address) : AddressTable :=
  match bucket with
  | .external => { table with externals := table.externals.add addr }
  | .stub => { table with stubs := table.stubs.add addr }
  | .sharedBlob => { table with sharedBlobs := table.sharedBlobs.add addr }
  | .tier1Blob => { table with tier1Blobs := table.tier1Blobs.add addr }
  | .tier2Blob => { table with tier2Blobs := table.tier2Blobs.add addr }

@[simp] theorem roster_push (table : AddressTable) (bucket other : Bucket) (addr : Address) :
    (table.push bucket addr).roster other =
      if other = bucket then (table.roster other).add addr else table.roster other := by
  cases bucket <;> cases other <;> simp [push, roster]

@[simp] theorem addresses_push (table : AddressTable) (bucket other : Bucket) (addr : Address) :
    (table.push bucket addr).addresses other =
      if other = bucket then (table.addresses other).push addr else table.addresses other := by
  rw [addresses, roster_push]
  split <;> rfl

@[simp] theorem phase_push (table : AddressTable) (bucket : Bucket) (addr : Address) :
    (table.push bucket addr).phase = table.phase := by
  cases bucket <;> rfl

/-- Whether a tier has registered its blobs. -/
def hasTier (table : AddressTable) : Tier → Bool
  | .one => table.tierOne
  | .two => table.tierTwo

/-- The table in which a tier has registered; with both tiers it is complete. -/
def finishTier (table : AddressTable) (tier : Tier) : AddressTable :=
  let tierOne := table.tierOne || tier == .one
  let tierTwo := table.tierTwo || tier == .two
  { table with tierOne, tierTwo, phase := if tierOne && tierTwo then .complete else table.phase }

/-! ## 3. Registration -/

/-- A registration; what it did before a refusal stays. -/
abbrev Installing := EStateM SymbolError AddressTable

/-- The bucket other than `bucket` that holds an address already. -/
def otherHolder? (table : AddressTable) (bucket : Bucket) (addr : Address) : Option Bucket :=
  Bucket.all.find? fun other => other != bucket && (table.index other).contains addr

/-- Registers one address: refused when another bucket holds it, or when there is no room. -/
def register (bucket : Bucket) (addr : Address) : Installing Unit := do
  let table ← get
  match table.otherHolder? bucket addr with
  | some other => throw (.ambiguous addr other bucket)
  | none =>
    if bucket.max ≤ (table.addresses bucket).size then throw (.bucketFull bucket)
    else set (table.push bucket addr)

/-- Registers a batch: routines, then stubs, then shared blobs. -/
def registerSet (batch : AddressSet) : Installing Unit := do
  batch.externals.forM (register .external)
  batch.stubs.forM (register .stub)
  batch.sharedBlobs.forM (register .sharedBlob)

/-- The early batch: the addresses of the stubs that exist before the process is initialised. -/
def installEarly (batch : AddressSet) : Installing Unit := do
  let table ← get
  if table.phase ≠ .empty then throw (.phaseOrder table.phase .early)
  registerSet batch
  modify ({ · with phase := .early })

/-- The full batch of the process; the early one may have been left out. -/
def installRuntime (batch : AddressSet) : Installing Unit := do
  let table ← get
  if Phase.early.rank < table.phase.rank then throw (.phaseOrder table.phase .runtime)
  registerSet batch
  modify ({ · with phase := .runtime })

/-- The blobs of one compiler tier, once for each tier and after the full batch. -/
def installTier (tier : Tier) (blobs : List Address) : Installing Unit := do
  let table ← get
  if table.phase.rank < Phase.runtime.rank || table.hasTier tier then
    throw (.phaseOrder table.phase (.tier tier))
  blobs.forM (register tier.bucket)
  modify (·.finishTier tier)

/-- Makes a registration. -/
def install : Installation → Installing Unit
  | .early batch => installEarly batch
  | .runtime batch => installRuntime batch
  | .tier tier blobs => installTier tier blobs

/-! ## 4. Ids -/

/-- The position by which a bucket knows an address. -/
def position? (table : AddressTable) (bucket : Bucket) (addr : Address) : Option Nat :=
  (table.index bucket)[addr]?

/-- **The index of a bucket answers what a search of its addresses finds.** -/
theorem position?_eq (table : AddressTable) (bucket : Bucket) (addr : Address) :
    table.position? bucket addr = (table.addresses bucket).findIdx? (· == addr) :=
  (table.roster bucket).index_eq addr

section Position

variable {table : AddressTable} {bucket : Bucket} {addr : Address} {position : Nat}

/-- **A position that an index has is the first one of the address.** -/
theorem position?_eq_some : table.position? bucket addr = some position ↔
    (table.addresses bucket)[position]? = some addr ∧
      ∀ earlier < position, (table.addresses bucket)[earlier]? ≠ some addr := by
  rw [position?_eq, Array.findIdx?_eq_some_iff_getElem]
  constructor
  · intro ⟨hlt, hat, hbefore⟩
    refine ⟨by rw [Array.getElem?_eq_getElem hlt, eq_of_beq hat], fun earlier hearlier => ?_⟩
    rw [Array.getElem?_eq_getElem (Nat.lt_trans hearlier hlt)]
    exact fun hsame => hbefore earlier hearlier (beq_iff_eq.2 (Option.some.inj hsame))
  · intro ⟨hat, hbefore⟩
    obtain ⟨hlt, hsame⟩ := Array.getElem?_eq_some_iff.1 hat
    refine ⟨hlt, beq_iff_eq.2 hsame, fun earlier hearlier hother => hbefore earlier hearlier ?_⟩
    rw [Array.getElem?_eq_getElem (Nat.lt_trans hearlier hlt), eq_of_beq hother]

theorem position?_eq_none : table.position? bucket addr = none ↔ addr ∉ table.addresses bucket := by
  rw [position?_eq, Array.findIdx?_eq_none_iff]
  exact ⟨fun h hmem => by simpa using h addr hmem, fun h other hmem => by
    rw [beq_eq_false_iff_ne]
    exact fun hsame => h (hsame ▸ hmem)⟩

end Position

/-- The id of an address: its first position in the first bucket of the search order that holds
    it. -/
def lookup? (table : AddressTable) (addr : Address) : Option Nat :=
  Bucket.searchOrder.findSome? fun bucket => (table.position? bucket addr).map (bucket.base + ·)

/-- The address of an id. A position without an address may get one until the table is complete. -/
def address (table : AddressTable) (id : Nat) : Except SymbolError Address :=
  match Bucket.forId? id with
  | none => .error (.unknownId id)
  | some bucket =>
    match (table.addresses bucket)[id - bucket.base]? with
    | some addr => .ok addr
    | none =>
      if table.phase = .complete then .error (.unknownId id)
      else .error (.notInstalled id table.phase)

end AddressTable

end CodeVault
