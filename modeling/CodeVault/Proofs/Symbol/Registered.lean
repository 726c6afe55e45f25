import CodeVault.Proofs.Symbol.Addresses

/-!
# Registered addresses in the course of phases

A process makes its registrations in any order and with any addresses, and some are refused, at once
or midway.

* no bucket holds an address of another (`Apart`), and the index of a bucket has the first position
  of everything in the bucket (`position?_eq_some`);
* phases only go forward (`rank_le_after`), and the last one is reached when both tiers are in
  (`complete_after_iff`);
* an address keeps its id (`lookup?_after`);
* **all this holds after any registrations, whatever they came to** (`registered_for_good`).
-/

namespace CodeVault

namespace AddressTable

/-! ## 1. One registration after the other -/

/-- The table after registrations. What is refused leaves what it did before. -/
def after (table : AddressTable) (installations : List Installation) : AddressTable :=
  installations.foldl (fun table installation => stateOf (install installation table)) table

/-- What each registration was refused for, if it was. -/
def refusals (table : AddressTable) : List Installation → List (Option SymbolError)
  | [] => []
  | installation :: later =>
    causeOf? (install installation table) :: (stateOf (install installation table)).refusals later

/-- Among the registrations is one of a tier's blobs that was not refused. -/
def Registers (table : AddressTable) (installations : List Installation) (which : Tier) : Prop :=
  ∃ blobs, (Installation.tier which blobs, none) ∈ installations.zip (table.refusals installations)

variable {table base : AddressTable} {bucket : Bucket} {addr : Address} {id position : Nat}

@[simp] theorem after_nil (table : AddressTable) : table.after [] = table := rfl

@[simp] theorem after_cons (table : AddressTable) (installation : Installation)
    (later : List Installation) :
    table.after (installation :: later) = (stateOf (install installation table)).after later := rfl

theorem after_append (table : AddressTable) (earlier later : List Installation) :
    table.after (earlier ++ later) = (table.after earlier).after later :=
  List.foldl_append ..

theorem Stays.after {holds : AddressTable → Prop} (h : Stays holds)
    (installations : List Installation) (hholds : holds table) :
    holds (table.after installations) := by
  induction installations generalizing table with
  | nil => exact hholds
  | cons installation later ih => exact ih (h.install installation hholds)

/-! ## 2. Buckets and their indexes -/

/-- No address is in two buckets. -/
def Apart (table : AddressTable) : Prop :=
  ∀ ⦃addr b c⦄, addr ∈ table.addresses b → addr ∈ table.addresses c → b = c

theorem apart_empty : empty.Apart := by
  intro addr b c hb
  cases b <;> exact absurd hb (Array.not_mem_empty addr)

theorem mem_addresses_push {other : Bucket} {added : Address}
    (h : addr ∈ (table.push bucket added).addresses other) :
    addr ∈ table.addresses other ∨ other = bucket ∧ addr = added := by
  rw [addresses_push] at h
  split at h
  · rename_i hsame
    exact (Array.mem_push.1 h).imp_right fun heq => ⟨hsame, heq⟩
  · exact .inl h

theorem stays_apart : Stays Apart where
  push table bucket added h hfree addr b c hb hc := by
    have hothers := (refusal?_eq_none.1 hfree).1
    rcases mem_addresses_push hb with hbold | ⟨rfl, rfl⟩
    · rcases mem_addresses_push hc with hcold | ⟨rfl, rfl⟩
      · exact h hbold hcold
      · exact Classical.byContradiction fun hne => hothers b hne hbold
    · rcases mem_addresses_push hc with hcold | ⟨rfl, -⟩
      · exact Classical.byContradiction fun hne => hothers c (Ne.symm hne) hcold
      · rfl
  same table other hsame h addr b c hb hc := by
    rw [hsame] at hb hc
    exact h hb hc

/-- **The id of an address is that of its first position in the one bucket that holds it.** -/
theorem Apart.lookup?_eq_some (h : table.Apart) : table.lookup? addr = some id ↔
    ∃ bucket position, table.position? bucket addr = some position ∧
      id = bucket.base + position := by
  have hmem : ∀ {bucket position}, table.position? bucket addr = some position →
      addr ∈ table.addresses bucket :=
    fun hfound => Array.mem_of_getElem? (position?_eq_some.1 hfound).1
  constructor
  · intro hlookup
    obtain ⟨bucket, -, hposition⟩ := List.exists_of_findSome?_eq_some hlookup
    obtain ⟨position, hfound, rfl⟩ := Option.map_eq_some_iff.1 hposition
    exact ⟨bucket, position, hfound, rfl⟩
  · intro ⟨bucket, position, hfound, hid⟩
    subst hid
    cases hlookup : table.lookup? addr with
    | none =>
      have hnone := List.findSome?_eq_none_iff.1 hlookup bucket bucket.mem_searchOrder
      rw [hfound] at hnone
      cases hnone
    | some other =>
      obtain ⟨holder, -, hposition⟩ := List.exists_of_findSome?_eq_some hlookup
      obtain ⟨place, hplace, rfl⟩ := Option.map_eq_some_iff.1 hposition
      obtain rfl := h (hmem hplace) (hmem hfound)
      rw [hplace] at hfound
      rw [Option.some.inj hfound]

theorem Apart.lookup?_eq_none (h : table.Apart) :
    table.lookup? addr = none ↔ ∀ bucket, addr ∉ table.addresses bucket := by
  simp only [Option.eq_none_iff_forall_ne_some, ne_eq, h.lookup?_eq_some, ← position?_eq_none]
  exact ⟨fun hnone bucket position hfound => hnone _ ⟨bucket, position, hfound, rfl⟩,
    fun hnone _ ⟨bucket, position, hfound, _⟩ => hnone bucket position hfound⟩

/-! ## 3. Phases -/

/-- What a registration does to the phase and to what is known of the tiers: nothing if it is
    refused; else its batch is closed, and it was its turn. -/
theorem flags_install (installation : Installation) (table : AddressTable) :
    (causeOf? (install installation table) ≠ none ∧
      (stateOf (install installation table)).phase = table.phase ∧
      ∀ which, (stateOf (install installation table)).hasTier which = table.hasTier which) ∨
    causeOf? (install installation table) = none ∧ table.admits installation.batch = true ∧
      stateOf (install installation table) =
        (table.pushAll installation.listed).finish installation.batch := by
  have hcomes := install_comesTo installation table
  generalize install installation table = outcome at hcomes ⊢
  cases hcomes with
  | outOfTurn => exact .inl ⟨nofun, rfl, fun _ => rfl⟩
  | refused => exact .inl ⟨nofun, phase_pushAll .., fun which => hasTier_pushAll ..⟩
  | done hturn => exact .inr ⟨rfl, hturn, rfl⟩

/-- A tier is in once its batch is closed. -/
theorem hasTier_finish (table : AddressTable) (batch : Batch) (which : Tier) :
    (table.finish batch).hasTier which = true ↔
      table.hasTier which = true ∨ batch = .tier which := by
  cases batch with
  | early => cases which <;> simp [finish, hasTier]
  | runtime => cases which <;> simp [finish, hasTier]
  | tier closed => cases closed <;> cases which <;> simp [finish, finishTier, hasTier]

/-- Both tiers are in. -/
def BothTiers (table : AddressTable) : Prop := ∀ which, table.hasTier which = true

theorem bothTiers_iff : table.BothTiers ↔ (table.tierOne && table.tierTwo) = true := by
  rw [Bool.and_eq_true]
  exact ⟨fun h => ⟨h .one, h .two⟩, fun h which => by cases which; exacts [h.1, h.2]⟩

/-- The batch of a tier completes the table if both tiers are in then, and leaves the phase if
    not. -/
theorem phase_finish_tier (table : AddressTable) (closed : Tier) :
    (table.finish (.tier closed)).BothTiers ∧ (table.finish (.tier closed)).phase = .complete ∨
      ¬ (table.finish (.tier closed)).BothTiers ∧
        (table.finish (.tier closed)).phase = table.phase := by
  have hphase : (table.finish (.tier closed)).phase =
      if (table.finish (.tier closed)).tierOne && (table.finish (.tier closed)).tierTwo then
        .complete
      else table.phase := rfl
  rw [bothTiers_iff, hphase]
  split
  · rename_i hboth
    exact .inl ⟨hboth, rfl⟩
  · rename_i hnot
    exact .inr ⟨hnot, rfl⟩

/-- A batch whose turn it is does not take the phase back. -/
theorem rank_le_finish {batch : Batch} (h : table.admits batch = true) :
    table.phase.rank ≤ (table.finish batch).phase.rank := by
  cases batch with
  | early =>
    rw [show table.phase = .empty from eq_of_beq h]
    exact Nat.zero_le _
  | runtime => exact Nat.le_succ_of_le (of_decide_eq_true h)
  | tier closed =>
    rcases table.phase_finish_tier closed with ⟨-, hphase⟩ | ⟨-, hphase⟩
    · rw [hphase]
      cases table.phase <;> decide
    · exact Nat.le_of_eq (congrArg Phase.rank hphase.symm)

/-- No tier is in before the full batch, and the last phase is that in which both are. -/
structure Phased (table : AddressTable) : Prop where
  tiers : ∀ which, table.hasTier which = true → Phase.runtime.rank ≤ table.phase.rank
  complete : table.phase = .complete ↔ table.BothTiers

theorem phased_empty : empty.Phased where
  tiers which h := by cases which <;> cases h
  complete := ⟨nofun, fun h => nomatch h .one⟩

/-- A batch of addresses is closed while no tier is in. -/
theorem Phased.finish_early (h : table.Phased) {batch : Batch}
    (hbefore : table.phase.rank < Phase.runtime.rank) (hbatch : ∀ which, batch ≠ .tier which)
    (hphase : (table.finish batch).phase ≠ .complete) :
    (table.finish batch).Phased := by
  have hnone : ∀ which, (table.finish batch).hasTier which ≠ true := fun which hin => by
    rcases (hasTier_finish ..).1 hin with hin | hsame
    · exact Nat.not_lt.2 (h.tiers which hin) hbefore
    · exact hbatch which hsame
  exact ⟨fun which hin => absurd hin (hnone which),
    fun hcomplete => absurd hcomplete hphase, fun hboth => absurd (hboth .one) (hnone .one)⟩

theorem Phased.finish (h : table.Phased) {batch : Batch} (hturn : table.admits batch = true) :
    (table.finish batch).Phased := by
  cases batch with
  | early =>
    have hempty : table.phase = .empty := eq_of_beq hturn
    exact h.finish_early (by rw [hempty]; decide) nofun nofun
  | runtime => exact h.finish_early (Nat.lt_succ_of_le (of_decide_eq_true hturn)) nofun nofun
  | tier closed =>
    obtain ⟨hfull, hopen⟩ := Bool.and_eq_true_iff.1 hturn
    have hafter := Nat.le_trans (of_decide_eq_true hfull) (rank_le_finish hturn)
    refine ⟨fun _ _ => hafter, ?_⟩
    rcases table.phase_finish_tier closed with ⟨hboth, hphase⟩ | ⟨hnot, hphase⟩
    · exact ⟨fun _ => hboth, fun _ => hphase⟩
    · rw [hphase, h.complete]
      exact ⟨fun hboth => by simp [hboth closed] at hopen, fun hboth => absurd hboth hnot⟩

theorem Phased.congr {now : AddressTable} (h : table.Phased) (hphase : now.phase = table.phase)
    (htiers : ∀ which, now.hasTier which = table.hasTier which) : now.Phased where
  tiers which hin := by
    rw [htiers] at hin
    rw [hphase]
    exact h.tiers which hin
  complete := by
    rw [hphase, h.complete]
    exact forall_congr' fun which => by rw [htiers]

/-- **Phases stay in step with the tiers**, whatever comes of a registration. -/
theorem Phased.install (h : table.Phased) (installation : Installation) :
    (stateOf (install installation table)).Phased := by
  rcases flags_install installation table with ⟨-, hphase, htiers⟩ | ⟨-, hturn, hstate⟩
  · exact h.congr hphase htiers
  · have hphase := phase_pushAll table installation.listed
    have htiers := hasTier_pushAll table installation.listed
    rw [hstate]
    exact (h.congr hphase htiers).finish ((admits_congr hphase htiers _).trans hturn)

/-- **A registration does not take the phase back.** -/
theorem rank_le_install (installation : Installation) (table : AddressTable) :
    table.phase.rank ≤ (stateOf (install installation table)).phase.rank := by
  rcases flags_install installation table with ⟨-, hphase, -⟩ | ⟨-, hturn, hstate⟩
  · exact Nat.le_of_eq (congrArg Phase.rank hphase.symm)
  · have hphase := phase_pushAll table installation.listed
    have hadmits := (admits_congr hphase (hasTier_pushAll table installation.listed) _).trans hturn
    rw [hstate, ← hphase]
    exact rank_le_finish hadmits

/-- A tier is in if it was before, or if its blobs were just registered. -/
theorem hasTier_install (installation : Installation) (table : AddressTable) (which : Tier) :
    (stateOf (install installation table)).hasTier which = true ↔
      table.hasTier which = true ∨
        installation.batch = .tier which ∧ causeOf? (install installation table) = none := by
  rcases flags_install installation table with ⟨hcause, -, htiers⟩ | ⟨hcause, -, hstate⟩
  · rw [htiers]
    exact ⟨.inl, fun h => h.resolve_right fun hdone => hcause hdone.2⟩
  · rw [hstate, hasTier_finish, hasTier_pushAll]
    exact or_congr_right ⟨fun hbatch => ⟨hbatch, hcause⟩, And.left⟩

theorem Phased.after (h : table.Phased) (installations : List Installation) :
    (table.after installations).Phased := by
  induction installations generalizing table with
  | nil => exact h
  | cons installation later ih => exact ih (h.install installation)

/-- **Registrations do not take the phase back.** -/
theorem rank_le_after (table : AddressTable) (installations : List Installation) :
    table.phase.rank ≤ (table.after installations).phase.rank := by
  induction installations generalizing table with
  | nil => exact Nat.le_refl _
  | cons installation later ih => exact Nat.le_trans (rank_le_install installation table) (ih _)

theorem batch_eq_tier {installation : Installation} {which : Tier} :
    installation.batch = .tier which ↔ ∃ blobs, installation = .tier which blobs := by
  cases installation with
  | early batch => simp [Installation.batch]
  | runtime batch => simp [Installation.batch]
  | tier other blobs => simp [Installation.batch]

/-- **A tier is in exactly when its blobs were registered without a refusal.** -/
theorem hasTier_after (table : AddressTable) (installations : List Installation) (which : Tier) :
    (table.after installations).hasTier which = true ↔
      table.hasTier which = true ∨ table.Registers installations which := by
  induction installations generalizing table with
  | nil => simp [Registers]
  | cons installation later ih =>
    rw [after_cons, ih, hasTier_install, or_assoc, batch_eq_tier]
    refine or_congr_right ?_
    simp only [Registers, refusals, List.zip_cons_cons, List.mem_cons, Prod.mk.injEq, exists_or]
    refine or_congr_left ⟨?_, ?_⟩
    · intro ⟨⟨blobs, hsame⟩, hdone⟩
      exact ⟨blobs, hsame.symm, hdone.symm⟩
    · intro ⟨blobs, hsame, hdone⟩
      exact ⟨⟨blobs, hsame.symm⟩, hdone.symm⟩

/-- **The table is complete exactly when the blobs of both tiers were registered without a
    refusal.** -/
theorem complete_after_iff (installations : List Installation) :
    (empty.after installations).phase = .complete ↔
      ∀ which, empty.Registers installations which := by
  rw [(phased_empty.after installations).complete]
  refine forall_congr' fun which => ?_
  rw [hasTier_after]
  exact or_iff_right fun hin => by cases which <;> cases hin

/-! ## 4. Ids -/

/-- An address of one table has the same first position in every table that has it all. -/
theorem Within.position? (h : base.Within table)
    (hfound : base.position? bucket addr = some position) :
    table.position? bucket addr = some position := by
  obtain ⟨hat, hbefore⟩ := position?_eq_some.1 hfound
  refine position?_eq_some.2 ⟨h bucket position addr hat, fun earlier hearlier hsame => ?_⟩
  obtain ⟨hlt, -⟩ := Array.getElem?_eq_some_iff.1 hat
  have hthere := Array.getElem?_eq_getElem (Nat.lt_trans hearlier hlt)
  have hother := h bucket earlier _ hthere
  rw [hsame] at hother
  exact hbefore earlier hearlier (hthere.trans hother.symm)

/-- **An address keeps its id.** -/
theorem lookup?_after (h : table.Apart) (hlookup : table.lookup? addr = some id)
    (later : List Installation) :
    (table.after later).lookup? addr = some id := by
  obtain ⟨bucket, position, hfound, hid⟩ := h.lookup?_eq_some.1 hlookup
  have hwithin := (stays_within table).after later fun _ _ _ hat => hat
  exact (stays_apart.after later h).lookup?_eq_some.2
    ⟨bucket, position, hwithin.position? hfound, hid⟩

/-- What an id of a bucket answers that has no address yet. -/
theorem address_of_free (hid : Bucket.forId? id = some bucket)
    (hfree : (table.addresses bucket)[id - bucket.base]? = none) :
    table.address id =
      .error (if table.phase = .complete then .unknownId id else .notInstalled id table.phase) := by
  simp only [address, hid, hfree]
  split <;> rfl

end AddressTable

/-- What an address is answered that nothing knows. -/
theorem SymbolTable.symbolOf_of_unknown {symbols : SymbolTable} {addr : Address}
    (hstring : symbols.strings.indexOfAddress? addr = none)
    (hbucket : symbols.addresses.lookup? addr = none)
    (hanchor : symbols.anchor.contains addr = false) :
    symbols.symbolOf addr =
      .error (if symbols.phase = .complete then
        .unknownAddress addr else .incomplete addr symbols.phase) := by
  have hdistance : symbols.anchor.distance? addr = none :=
    Option.not_isSome_iff_eq_none.1 (Bool.eq_false_iff.1 hanchor)
  simp only [SymbolTable.symbolOf, hstring, hbucket, hdistance]
  split <;> rfl

namespace AddressTable

variable {table : AddressTable}

/-! ## 5. After any registrations -/

/-- A table in which buckets, indexes and ids fit together. -/
structure WellKept (table : AddressTable) : Prop where
  /-- No bucket holds more than it may. -/
  bounded : ∀ bucket : Bucket, (table.addresses bucket).size ≤ bucket.max
  /-- No address is in two buckets. -/
  apart : ∀ addr b c, addr ∈ table.addresses b → addr ∈ table.addresses c → b = c
  /-- An index has the addresses of its bucket, each with its first position, and no others. -/
  index : ∀ (bucket : Bucket) (addr : Address) position,
    (table.index bucket)[addr]? = some position ↔
    (table.addresses bucket)[position]? = some addr ∧
      ∀ earlier < position, (table.addresses bucket)[earlier]? ≠ some addr
  /-- The id of an address is the one that the index of some bucket has for it. -/
  lookup : ∀ (addr : Address) id, table.lookup? addr = some id ↔
    ∃ bucket position, (table.index bucket)[addr]? = some position ∧ id = bucket.base + position
  /-- The id of an address leads back to it. -/
  address : ∀ addr id, table.lookup? addr = some id → table.address id = .ok addr
  /-- An id of a bucket without an address is not installed, until the table is complete, and
      unknown then. -/
  free : ∀ id bucket, Bucket.forId? id = some bucket →
    (table.addresses bucket)[id - bucket.base]? = none →
    table.address id = .error (if table.phase = .complete then
      .unknownId id else .notInstalled id table.phase)

theorem wellKept (hbounded : table.Bounded) (hapart : table.Apart) : table.WellKept where
  bounded := hbounded
  apart _ _ _ hb hc := hapart hb hc
  index _ _ _ := position?_eq_some
  lookup _ _ := hapart.lookup?_eq_some
  address _ _ hlookup := (address_of_lookup? hbounded hlookup).2
  free _ _ hid hfree := address_of_free hid hfree

/-- **What is registered is registered for good.** After any registrations, with any addresses and
    whatever they came to: buckets, indexes and ids fit together; the phase has never gone back, and
    it is the last one exactly if the blobs of both tiers were registered without a refusal; an
    address keeps its id whatever is registered later; and an address that no string, no bucket and
    no anchor region knows is refused, which may pass as long as the table is not complete, and is
    fatal once it is. -/
theorem registered_for_good (installations : List Installation) :
    let table := empty.after installations
    table.WellKept ∧
    (∀ earlier later, installations = earlier ++ later →
      (empty.after earlier).phase.rank ≤ table.phase.rank) ∧
    (table.phase = .complete ↔ ∀ which, empty.Registers installations which) ∧
    (∀ addr id, table.lookup? addr = some id →
      ∀ later, (table.after later).lookup? addr = some id) ∧
    ∀ symbols : SymbolTable, symbols.addresses = table →
      ∀ addr, symbols.strings.indexOfAddress? addr = none →
      (∀ bucket, addr ∉ table.addresses bucket) → symbols.anchor.contains addr = false →
      ∃ cause, symbols.symbolOf addr = .error cause ∧
        (table.phase ≠ .complete → cause = .incomplete addr table.phase ∧ cause.isFatal = false) ∧
        (table.phase = .complete → cause = .unknownAddress addr ∧ cause.isFatal = true) := by
  intro table
  have hbounded : table.Bounded := stays_bounded.after installations bounded_empty
  have hapart : table.Apart := stays_apart.after installations apart_empty
  refine ⟨wellKept hbounded hapart, ?_, complete_after_iff installations,
    fun addr id hlookup later => lookup?_after hapart hlookup later, ?_⟩
  · intro earlier later hsplit
    have htable : table = (empty.after earlier).after later := by rw [← after_append, ← hsplit]
    rw [htable]
    exact rank_le_after _ later
  · intro symbols hsame addr hstring hbuckets hanchor
    have hbucket : symbols.addresses.lookup? addr = none := by
      rw [hsame]
      exact hapart.lookup?_eq_none.2 hbuckets
    refine ⟨_, SymbolTable.symbolOf_of_unknown hstring hbucket hanchor, fun hphase => ?_,
      fun hphase => ?_⟩
    · rw [SymbolTable.phase, hsame, if_neg hphase]
      exact ⟨rfl, rfl⟩
    · rw [SymbolTable.phase, hsame, if_pos hphase]
      exact ⟨rfl, rfl⟩

/-! An example: the full batch is refused for an address in two buckets, and is made again with
others. -/

/-- The registrations. -/
def crossed : List Installation :=
  [.runtime ⟨[4096, 8192], [8192], []⟩, .runtime ⟨[4096], [12288], []⟩, .tier .two [16384],
    .tier .one []]

theorem registered_for_good_crossed :
    let table := empty.after crossed
    empty.refusals crossed = [some (.ambiguous 8192 .external .stub), none, none, none] ∧
    table.phase = .complete ∧ (∀ which, empty.Registers crossed which) ∧
    table.lookup? 4096 = some 0 ∧ table.address 0 = .ok 4096 ∧
    (∀ later, (table.after later).lookup? 4096 = some 0) ∧
    table.address 3 = .error (.unknownId 3) ∧
    ∃ cause, (SymbolTable.mk table (.empty fun _ => 0) .none).symbolOf 20480 = .error cause ∧
      cause.isFatal = true := by
  intro table
  obtain ⟨hkept, -, hcomplete, hstays, hunknown⟩ := registered_for_good crossed
  have hphase : table.phase = .complete := by decide +kernel
  have hlookup : table.lookup? 4096 = some 0 := by decide +kernel
  have hfree := hkept.free 3 .external (by decide) (by decide +kernel)
  rw [if_pos hphase] at hfree
  obtain ⟨cause, hcause, -, hfatal⟩ :=
    hunknown (SymbolTable.mk table (.empty fun _ => 0) .none) rfl 20480
      (by decide +kernel) (by intro bucket; cases bucket <;> decide +kernel) (by decide +kernel)
  exact ⟨by decide +kernel, hphase, hcomplete.1 hphase, hlookup, hkept.address 4096 0 hlookup,
    hstays 4096 0 hlookup, hfree, cause, hcause, (hfatal hphase).2⟩

end AddressTable

end CodeVault
