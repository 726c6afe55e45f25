import CodeVault.Proofs.Symbol.Registration

/-!
# What a refused registration leaves behind

A registration that is refused at one of its addresses has registered those before it, and it is
still the turn of its batch.

* every bucket has then what was there, and its part of these addresses
  (`toList_addresses_pushAll`);
* **the table answers as before exactly when the registration was refused at once**, out of turn or
  at its first address; and exactly then a repeated registration gives the ids that it would have
  given in the first place (`install_refused_leaves`).
-/

namespace CodeVault.AddressTable

variable {table left : AddressTable} {installation : Installation} {cause : SymbolError}

/-! ## 1. What is left -/

/-- The addresses of a list that are for a bucket. -/
def listedFor (bucket : Bucket) (items : List (Bucket × Address)) : List Address :=
  (items.filter (·.1 == bucket)).map (·.2)

/-- **A bucket has what was there, and behind it its part of the list.** -/
theorem toList_addresses_pushAll (table : AddressTable) (items : List (Bucket × Address))
    (bucket : Bucket) :
    ((table.pushAll items).addresses bucket).toList =
      (table.addresses bucket).toList ++ listedFor bucket items := by
  induction items generalizing table with
  | nil => exact (List.append_nil _).symm
  | cons item items ih =>
    refine (ih (table.push item.1 item.2)).trans ?_
    rw [addresses_push]
    by_cases hsame : bucket = item.1
    · simp [listedFor, hsame]
    · simp [listedFor, hsame, Ne.symm hsame]

/-- A list without addresses for any bucket is empty. -/
theorem eq_nil_of_listedFor {items : List (Bucket × Address)}
    (h : ∀ bucket, listedFor bucket items = []) :
    items = [] := by
  cases items with
  | nil => rfl
  | cons item items => simpa [listedFor] using h item.1

/-- Buckets that are as large with a list in them as without it: the list is empty. -/
theorem eq_nil_of_sizes {now other : AddressTable} {items : List (Bucket × Address)}
    {front back : Bucket → List Address}
    (hnow : ∀ bucket, (now.addresses bucket).toList =
      front bucket ++ listedFor bucket items ++ back bucket)
    (hother : ∀ bucket, (other.addresses bucket).toList = front bucket ++ back bucket)
    (hsize : ∀ bucket, (now.addresses bucket).size = (other.addresses bucket).size) :
    items = [] := by
  refine eq_nil_of_listedFor fun bucket => List.eq_nil_of_length_eq_zero ?_
  have hlengths := hsize bucket
  rw [← Array.length_toList, ← Array.length_toList, hnow, hother, List.length_append,
    List.length_append, List.length_append] at hlengths
  omega

/-- A registration that is not refused adds what it lists. -/
theorem toList_addresses_install {now : AddressTable} (h : install installation table = .ok () now)
    (bucket : Bucket) :
    (now.addresses bucket).toList =
      (table.addresses bucket).toList ++ listedFor bucket installation.listed := by
  cases h ▸ install_comesTo installation table with
  | done => rw [addresses_finish, toList_addresses_pushAll]

/-! ## 2. What is answered then -/

/-- Two tables answer every question alike. -/
structure SameAnswers (table now : AddressTable) : Prop where
  lookup : ∀ addr, now.lookup? addr = table.lookup? addr
  address : ∀ id, now.address id = table.address id
  size : ∀ bucket, (now.addresses bucket).size = (table.addresses bucket).size
  phase : now.phase = table.phase

theorem SameAnswers.refl (table : AddressTable) : table.SameAnswers table :=
  ⟨fun _ => rfl, fun _ => rfl, fun _ => rfl, rfl⟩

/-- A registration is refused before it has registered anything: out of turn, or at its first
    address. -/
def RefusedAtOnce (table : AddressTable) (installation : Installation) : Prop :=
  table.admits installation.batch = false ∨ ∃ bucket addr behind,
    installation.listed = (bucket, addr) :: behind ∧ table.refusal? bucket addr ≠ none

/-- What a refused registration was refused for, and what it leaves: the addresses before the one
    refused. -/
theorem install_error (h : install installation table = .error cause left) :
    ∃ before behind, installation.listed = before ++ behind ∧ table.Accepts before ∧
      left = table.pushAll before ∧
      (before = [] ↔ table.RefusedAtOnce installation) ∧
      ∀ found requested, cause = .phaseOrder found requested → before = [] := by
  cases h ▸ install_comesTo installation table with
  | outOfTurn hturn =>
    exact ⟨[], _, rfl, trivial, rfl, ⟨fun _ => .inl hturn, fun _ => rfl⟩, fun _ _ _ => rfl⟩
  | @refused before _ bucket addr _ hturn hlisted haccepts hnext =>
    refine ⟨before, _, hlisted, haccepts, rfl, ⟨?_, ?_⟩, fun found requested hcause => ?_⟩
    · intro hnone
      subst hnone
      exact .inr ⟨bucket, addr, _, hlisted, Option.ne_none_iff_exists'.2 ⟨_, hnext⟩⟩
    · intro honce
      rcases honce with hnot | ⟨first, addr', behind', hfirst, hrefused⟩
      · rw [hturn] at hnot
        cases hnot
      · cases before with
        | nil => rfl
        | cons item before =>
          rw [hfirst] at hlisted
          cases hlisted
          exact absurd haccepts.1 hrefused
    · exact absurd hcause (refusal?_ne_phaseOrder hnext found requested)

/-- **A refused registration leaves the addresses before the one refused**, none if it was out of
    turn. The phase stays, and so does the turn of every batch. The table answers as before exactly
    if nothing is left, that is, if the registration was refused at once. If one is made then, each
    bucket has its addresses behind those left, where it would have them behind what was there
    before; so that both answer alike exactly if nothing is left. -/
theorem install_refused_leaves (h : install installation table = .error cause left) :
    ∃ before behind, installation.listed = before ++ behind ∧ table.Accepts before ∧
      left = table.pushAll before ∧
      (∀ found requested, cause = .phaseOrder found requested → before = []) ∧
      left.phase = table.phase ∧ (∀ batch, left.admits batch = table.admits batch) ∧
      (before = [] ↔ table.RefusedAtOnce installation) ∧ (table.SameAnswers left ↔ before = []) ∧
      ∀ repeated now other, install repeated left = .ok () now →
        install repeated table = .ok () other →
        (∀ bucket, (other.addresses bucket).toList =
            (table.addresses bucket).toList ++ listedFor bucket repeated.listed ∧
          (now.addresses bucket).toList =
            (table.addresses bucket).toList ++ listedFor bucket before ++
              listedFor bucket repeated.listed) ∧
        (other.SameAnswers now ↔ before = []) := by
  obtain ⟨before, behind, hlisted, haccepts, rfl, honce, hturn⟩ := install_error h
  have hphase := phase_pushAll table before
  refine ⟨before, behind, hlisted, haccepts, rfl, hturn, hphase,
    admits_congr hphase (hasTier_pushAll table before), honce, ⟨fun hsame => ?_, ?_⟩,
    fun repeated now other hnow hother => ?_⟩
  · have hleft : ∀ bucket, ((table.pushAll before).addresses bucket).toList =
        (table.addresses bucket).toList ++ listedFor bucket before ++ [] := fun bucket => by
      rw [toList_addresses_pushAll, List.append_nil]
    exact eq_nil_of_sizes hleft (fun bucket => (List.append_nil _).symm) hsame.size
  · intro hnone
    subst hnone
    exact .refl table
  · have hthere := toList_addresses_install hother
    have hbehind : ∀ bucket, (now.addresses bucket).toList =
        (table.addresses bucket).toList ++ listedFor bucket before ++
        listedFor bucket repeated.listed := by
      intro bucket
      rw [toList_addresses_install hnow, toList_addresses_pushAll]
    refine ⟨fun bucket => ⟨hthere bucket, hbehind bucket⟩,
      fun hsame => eq_nil_of_sizes hbehind hthere hsame.size, ?_⟩
    intro hnone
    subst hnone
    have hboth := hnow.symm.trans hother
    cases hboth
    exact .refl _

/-! An example: of the full batch two routines are registered before a stub is refused that is one
    of them; the batch is then made again with that routine only, which does not get the id that it
    has in other processes. -/

/-- The batch that is refused. -/
def mistaken : Installation := .runtime ⟨[36864, 4096], [4096], []⟩

/-- The batch that is made then. -/
def mended : Installation := .runtime ⟨[4096], [8192], []⟩

theorem install_refused_leaves_routines : ∃ left now other,
    install mistaken empty = .error (.ambiguous 4096 .external .stub) left ∧
    ¬ empty.SameAnswers left ∧
    install mended left = .ok () now ∧ install mended empty = .ok () other ∧
    now.lookup? 4096 = some 1 ∧ other.lookup? 4096 = some 0 ∧ ¬ other.SameAnswers now := by
  let left := (empty.push .external 36864).push .external 4096
  let now := { (left.push .external 4096).push .stub 8192 with phase := .runtime }
  let other := { (empty.push .external 4096).push .stub 8192 with phase := .runtime }
  have hleft : install mistaken empty = .error (.ambiguous 4096 .external .stub) left := by
    with_unfolding_all rfl
  have hnow : install mended left = .ok () now := by with_unfolding_all rfl
  have hother : install mended empty = .ok () other := by with_unfolding_all rfl
  obtain ⟨before, -, -, -, hstate, -, -, -, -, hsame, hrepeated⟩ := install_refused_leaves hleft
  have hsome : before ≠ [] := by
    intro hnone
    subst hnone
    exact absurd (congrArg (fun table => (table.addresses .external).size) hstate) (by decide)
  exact ⟨left, now, other, hleft, mt hsame.1 hsome, hnow, hother,
    by decide +kernel, by decide +kernel, mt (hrepeated mended now other hnow hother).2.1 hsome⟩

end CodeVault.AddressTable
