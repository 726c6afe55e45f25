import CodeVault.Proofs.Outcome
import CodeVault.Symbol.AddressTable

/-!
# What one registration does

A registration lists addresses, each for a bucket, and registers them one after the other.

* `refusal?` says whether an address is refused, `enter` registers a list of them up to the first
  that is;
* `admits` says whether it is a batch's turn, `finish` closes the batch when all of it is
  registered;
* **a registration is these, in this order** (`install_eq`), whatever its batch;
* **it is refused out of turn, or at one address, with those before it registered, or it is done**
  (`install_comesTo`).
-/

namespace CodeVault

/-! ## 1. What a registration lists -/

/-- The addresses of a batch with their buckets, in the order in which they are registered. -/
def AddressSet.listed (batch : AddressSet) : List (Bucket × Address) :=
  batch.externals.map (.external,
    ·) ++ (batch.stubs.map (.stub, ·) ++ batch.sharedBlobs.map (.sharedBlob, ·))

namespace Installation

/-- The batch that a registration is. -/
def batch : Installation → Batch
  | .early _ => .early
  | .runtime _ => .runtime
  | .tier which _ => .tier which

/-- The addresses that a registration lists, with their buckets. -/
def listed : Installation → List (Bucket × Address)
  | .early batch => batch.listed
  | .runtime batch => batch.listed
  | .tier which blobs => blobs.map (which.bucket, ·)

end Installation

namespace AddressTable

/-! ## 2. One address after the other -/

/-- What an address is refused for: another bucket holds it, or there is no room in its own. -/
def refusal? (table : AddressTable) (bucket : Bucket) (addr : Address) : Option SymbolError :=
  match table.otherHolder? bucket addr with
  | some other => some (.ambiguous addr other bucket)
  | none => if bucket.max ≤ (table.addresses bucket).size then some (.bucketFull bucket) else none

/-- The table with more addresses, each at the end of its bucket. -/
def pushAll (table : AddressTable) (items : List (Bucket × Address)) : AddressTable :=
  items.foldl (fun table item => table.push item.1 item.2) table

/-- No address of a list is refused when those before it are registered. -/
def Accepts (table : AddressTable) : List (Bucket × Address) → Prop
  | [] => True
  | (bucket, addr) :: items =>
    table.refusal? bucket addr = none ∧ (table.push bucket addr).Accepts items

/-- Registers addresses up to the first that is refused. -/
def enter : List (Bucket × Address) → AddressTable → EStateM.Result SymbolError AddressTable Unit
  | [], table => .ok () table
  | (bucket, addr) :: items, table =>
    match table.refusal? bucket addr with
    | some cause => .error cause table
    | none => enter items (table.push bucket addr)

variable {table : AddressTable} {bucket other : Bucket} {addr : Address} {cause : SymbolError}

@[simp] theorem hasTier_push (table : AddressTable) (bucket : Bucket) (addr : Address)
    (which : Tier) :
    (table.push bucket addr).hasTier which = table.hasTier which := by
  cases bucket <;> cases which <;> rfl

@[simp] theorem phase_pushAll (table : AddressTable) (items : List (Bucket × Address)) :
    (table.pushAll items).phase = table.phase := by
  induction items generalizing table with
  | nil => rfl
  | cons item items ih => exact (ih _).trans (phase_push ..)

@[simp] theorem hasTier_pushAll (table : AddressTable) (items : List (Bucket × Address))
    (which : Tier) :
    (table.pushAll items).hasTier which = table.hasTier which := by
  induction items generalizing table with
  | nil => rfl
  | cons item items ih => exact (ih _).trans (hasTier_push ..)

theorem otherHolder?_eq_none :
    table.otherHolder? bucket addr = none ↔ ∀ other ≠ bucket, addr ∉ table.addresses other := by
  rw [otherHolder?, List.find?_eq_none]
  constructor
  · intro h other hother hmem
    refine h other other.mem_all ?_
    rw [Bool.and_eq_true, contains_index]
    exact ⟨bne_iff_ne.2 hother, hmem⟩
  · intro h other _ hholds
    rw [Bool.and_eq_true, contains_index] at hholds
    exact h other (bne_iff_ne.1 hholds.1) hholds.2

/-- **An address is taken exactly when no other bucket holds it and its own has room.** -/
theorem refusal?_eq_none : table.refusal? bucket addr = none ↔
    (∀ other ≠ bucket, addr ∉ table.addresses other) ∧
      (table.addresses bucket).size < bucket.max := by
  rw [← otherHolder?_eq_none]
  unfold refusal?
  cases table.otherHolder? bucket addr with
  | some other => simp
  | none => simp

/-- No address is refused for its turn. -/
theorem refusal?_ne_phaseOrder (h : table.refusal? bucket addr = some cause) (found : Phase)
    (batch : Batch) :
    cause ≠ .phaseOrder found batch := by
  intro hsame
  subst hsame
  unfold refusal? at h
  split at h
  · cases h
  · split at h <;> cases h

theorem register_eq (bucket : Bucket) (addr : Address) (table : AddressTable) :
    register bucket addr table = match table.refusal? bucket addr with
      | some cause => .error cause table
      | none => .ok () (table.push bucket addr) := by
  unfold refusal?
  show (match table.otherHolder? bucket addr with
    | some other => (throw (SymbolError.ambiguous addr other bucket) : Installing Unit)
    | none => if bucket.max ≤ (table.addresses bucket).size then
      throw (SymbolError.bucketFull bucket)
      else set (table.push bucket addr)) table = _
  cases table.otherHolder? bucket addr with
  | some other => rfl
  | none =>
    dsimp only
    split <;> rfl

theorem enter_eq (items : List (Bucket × Address)) (table : AddressTable) :
    (items.forM fun item => register item.1 item.2) table = enter items table := by
  induction items generalizing table with
  | nil => rfl
  | cons item items ih =>
    show (register item.1 item.2 >>= fun _ => items.forM fun item => register item.1 item.2) table =
        _
    unfold enter
    have hregister := register_eq item.1 item.2 table
    cases hrefusal : table.refusal? item.1 item.2 with
    | some cause =>
      rw [hrefusal] at hregister
      exact bind_of_error hregister
    | none =>
      rw [hrefusal] at hregister
      rw [bind_of_ok hregister]
      exact ih _

/-- **A list is registered up to the first address that is refused**, or all of it is. -/
theorem enter_cases (items : List (Bucket × Address)) (table : AddressTable) :
    (∃ before bucket addr behind cause, items = before ++ (bucket, addr) :: behind ∧
      table.Accepts before ∧
      (table.pushAll before).refusal? bucket addr = some cause ∧
      enter items table = .error cause (table.pushAll before)) ∨
    table.Accepts items ∧ enter items table = .ok () (table.pushAll items) := by
  induction items generalizing table with
  | nil => exact .inr ⟨trivial, rfl⟩
  | cons item items ih =>
    unfold enter
    cases hrefusal : table.refusal? item.1 item.2 with
    | some cause => exact .inl ⟨[], item.1, item.2, items, cause, rfl, trivial, hrefusal, rfl⟩
    | none =>
      rcases ih (table.push item.1 item.2) with
        ⟨before, bucket, addr, behind, cause, rfl, haccepts, hnext, hrun⟩ |
        ⟨haccepts, hrun⟩
      · exact .inl ⟨item :: before, bucket, addr, behind, cause, rfl, ⟨hrefusal, haccepts⟩,
          hnext, hrun⟩
      · exact .inr ⟨⟨hrefusal, haccepts⟩, hrun⟩

/-! ## 3. A batch and its turn -/

/-- Whether it is a batch's turn. -/
def admits (table : AddressTable) : Batch → Bool
  | .early => table.phase == .empty
  | .runtime => table.phase.rank ≤ Phase.early.rank
  | .tier tier => Phase.runtime.rank ≤ table.phase.rank && !table.hasTier tier

/-- The table in which a batch is complete. -/
def finish (table : AddressTable) : Batch → AddressTable
  | .early => { table with phase := .early }
  | .runtime => { table with phase := .runtime }
  | .tier tier => table.finishTier tier

@[simp] theorem addresses_finish (table : AddressTable) (batch : Batch) (bucket : Bucket) :
    (table.finish batch).addresses bucket = table.addresses bucket := by
  cases batch <;> cases bucket <;> rfl

/-- The turn of a batch depends on the phase and on the tiers only. -/
theorem admits_congr {now : AddressTable} (hphase : now.phase = table.phase)
    (htiers : ∀ which, now.hasTier which = table.hasTier which) (batch : Batch) :
    now.admits batch = table.admits batch := by
  cases batch with
  | early => rw [admits, admits, hphase]
  | runtime => rw [admits, admits, hphase]
  | tier which => rw [admits, admits, hphase, htiers]

theorem registerSet_eq (batch : AddressSet) :
    registerSet batch = batch.listed.forM fun item => register item.1 item.2 := by
  simp only [registerSet, AddressSet.listed, List.forM_eq_forM, List.forM_append, List.forM_map]

/-- Closes a batch whose addresses were all registered. -/
def closing (batch : Batch) : EStateM.Result SymbolError AddressTable Unit →
    EStateM.Result SymbolError AddressTable Unit
  | .ok _ table => .ok () (table.finish batch)
  | .error cause table => .error cause table

theorem bind_modify (items : List (Bucket × Address)) (batch : Batch) (table : AddressTable) :
    ((items.forM fun item => register item.1 item.2) >>= fun _ => modify (·.finish batch)) table =
      closing batch (enter items table) := by
  have hentered := enter_eq items table
  cases hrun : enter items table with
  | ok u t => exact bind_of_ok (hentered.trans hrun)
  | error cause t => exact bind_of_error (hentered.trans hrun)

/-- A refusal in front of an action. -/
theorem refuse_unless {c : Prop} [Decidable c] {admitted : Bool} {cause : SymbolError}
    {f : Unit → Installing Unit} {result : EStateM.Result SymbolError AddressTable Unit}
    (hturn : c ↔ admitted = false) (hrun : f () table = result) :
    (if c then (throw cause : Installing Unit) >>= f else f ()) table =
      if admitted then result else .error cause table := by
  cases admitted with
  | true => rw [if_neg fun hc => Bool.noConfusion (hturn.1 hc), if_pos rfl, hrun]
  | false =>
    rw [if_pos (hturn.2 rfl), if_neg Bool.false_ne_true]
    rfl

/-- **A registration out of turn is refused; else its addresses are registered, and its batch is
    closed.** -/
theorem install_eq (installation : Installation) (table : AddressTable) :
    install installation table =
      if table.admits installation.batch then
        closing installation.batch (enter installation.listed table)
      else .error (.phaseOrder table.phase installation.batch) table := by
  cases installation with
  | early batch =>
    have hturn : table.phase ≠ .empty ↔ table.admits .early = false := by simp [admits]
    have hchain := bind_modify batch.listed .early table
    rw [← registerSet_eq] at hchain
    exact refuse_unless (f := fun _ => registerSet batch >>= fun _ => modify (·.finish .early))
      hturn hchain
  | runtime batch =>
    have hturn : Phase.early.rank < table.phase.rank ↔ table.admits .runtime = false := by
      simp [admits]
    have hchain := bind_modify batch.listed .runtime table
    rw [← registerSet_eq] at hchain
    exact refuse_unless (f := fun _ => registerSet batch >>= fun _ => modify (·.finish .runtime))
      hturn hchain
  | tier which blobs =>
    have hturn : (table.phase.rank < Phase.runtime.rank || table.hasTier which) = true ↔
        table.admits (.tier which) = false := by
      rw [admits, Bool.and_eq_false_iff, Bool.or_eq_true, decide_eq_true_eq,
        decide_eq_false_iff_not, Nat.not_le, Bool.not_eq_false']
    have hchain := bind_modify (blobs.map (which.bucket, ·)) (.tier which) table
    rw [List.forM_eq_forM, List.forM_map] at hchain
    exact refuse_unless
      (f := fun _ => (forM blobs (register which.bucket)) >>= fun _ => modify (·.finishTier which))
      hturn hchain

/-- What a registration may come to. -/
inductive ComesTo (table : AddressTable) (installation : Installation) :
    EStateM.Result SymbolError AddressTable Unit → Prop
  /-- It is refused out of turn, with the table as it was. -/
  | outOfTurn (hturn : table.admits installation.batch = false) :
    ComesTo table installation (.error (.phaseOrder table.phase installation.batch) table)
  /-- It is refused at an address, with those before it registered. -/
  | refused {before behind : List (Bucket × Address)} {bucket : Bucket} {addr : Address}
      {cause : SymbolError}
    (hturn : table.admits installation.batch = true)
    (hlisted : installation.listed = before ++ (bucket, addr) :: behind)
    (haccepts : table.Accepts before)
    (hnext : (table.pushAll before).refusal? bucket addr = some cause) :
    ComesTo table installation (.error cause (table.pushAll before))
  /-- All its addresses are registered, and its batch is closed. -/
  | done (hturn : table.admits installation.batch = true)
      (haccepts : table.Accepts installation.listed) :
    ComesTo table installation
      (.ok () ((table.pushAll installation.listed).finish installation.batch))

/-- **A registration comes to nothing else.** -/
theorem install_comesTo (installation : Installation) (table : AddressTable) :
    table.ComesTo installation (install installation table) := by
  rw [install_eq]
  cases hturn : table.admits installation.batch with
  | false => exact .outOfTurn hturn
  | true =>
    rcases enter_cases installation.listed table with
      ⟨_, _, _, _, _, hlisted, haccepts, hnext, hrun⟩ | ⟨haccepts, hrun⟩
    · rw [hrun]
      exact .refused hturn hlisted haccepts hnext
    · rw [hrun]
      exact .done hturn haccepts

/-! ## 4. What a registration keeps -/

/-- What is true of a table stays true when an address is added that is not refused, and when its
    buckets stay as they are. -/
structure Stays (holds : AddressTable → Prop) : Prop where
  push : ∀ ⦃table bucket addr⦄, holds table → table.refusal? bucket addr = none →
    holds (table.push bucket addr)
  same : ∀ ⦃table other⦄, (∀ bucket, other.addresses bucket = table.addresses bucket) →
    holds table → holds other

section Stays

variable {holds : AddressTable → Prop}

theorem Stays.pushAll (h : Stays holds) {items : List (Bucket × Address)}
    (haccepts : table.Accepts items) (hholds : holds table) : holds (table.pushAll items) := by
  induction items generalizing table with
  | nil => exact hholds
  | cons item items ih => exact ih haccepts.2 (h.push hholds haccepts.1)

/-- **Whatever comes of a registration, it only adds addresses that are not refused.** -/
theorem Stays.install (h : Stays holds) (installation : Installation) :
    Preserves holds (install installation) := by
  intro table hholds
  have hcomes := install_comesTo installation table
  generalize AddressTable.install installation table = outcome at hcomes ⊢
  cases hcomes with
  | outOfTurn => exact hholds
  | refused _ _ haccepts _ => exact h.pushAll haccepts hholds
  | done _ haccepts => exact h.same (fun bucket => addresses_finish ..) (h.pushAll haccepts hholds)

end Stays

end AddressTable

end CodeVault
