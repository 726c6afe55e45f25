import CodeVault.Fault

/-!
# Outcomes of actions

An action that is a chain of actions ends well exactly when every link does, each in the state that
the one before it left. These lemmas take such a chain apart, link by link.

* `bind_eq_ok` for a chain with a state, `except_bind_eq_ok` for one without;
* `refusal_eq_ok` for a link that only refuses;
* `causeOf?` is what an action was refused for;
* `stateOf` is the state that an action leaves, whatever its outcome, and `Preserves` says what
  every outcome preserves;
* `Traces` ties an action to another that goes the same way and answers something else.
-/

namespace CodeVault

variable {ε φ σ α β : Type}

/-! ## 1. Chains with a state -/

/-- The state that an action leaves. -/
def stateOf : EStateM.Result ε σ α → σ
  | .ok _ s => s
  | .error _ s => s

@[simp] theorem stateOf_ok (a : α) (s : σ) : stateOf (.ok a s : EStateM.Result ε σ α) = s := rfl

@[simp] theorem stateOf_error (e : ε) (s : σ) :
    stateOf (.error e s : EStateM.Result ε σ α) = s := rfl

/-- What an action was refused for, if it was. -/
def causeOf? : EStateM.Result ε σ α → Option ε
  | .ok _ _ => none
  | .error e _ => some e

theorem causeOf?_eq_some {result : EStateM.Result ε σ α} {e : ε} :
    causeOf? result = some e ↔ ∃ s, result = .error e s := by
  cases result <;> simp [causeOf?]

theorem causeOf?_eq_none {result : EStateM.Result ε σ α} :
    causeOf? result = none ↔ ∃ a s, result = .ok a s := by
  cases result <;> simp [causeOf?]

/-- **A chain ends well exactly when both parts do, the second in the state that the first
    left.** -/
theorem bind_eq_ok {x : EStateM ε σ α} {f : α → EStateM ε σ β} {s t : σ} {b : β} :
    (x >>= f) s = .ok b t ↔ ∃ a r, x s = .ok a r ∧ f a r = .ok b t := by
  show EStateM.bind x f s = _ ↔ _
  unfold EStateM.bind
  cases h : x s with
  | ok a r =>
    constructor
    · exact fun hf => ⟨a, r, rfl, hf⟩
    · rintro ⟨a', r', heq, hf⟩
      cases heq
      exact hf
  | error e r =>
    constructor
    · intro hf
      cases hf
    · rintro ⟨_, _, heq, _⟩
      cases heq

theorem bind_ok {x : EStateM ε σ α} {f : α → EStateM ε σ β} {s t : σ} {b : β}
    (h : (x >>= f) s = .ok b t) : ∃ a r, x s = .ok a r ∧ f a r = .ok b t :=
  bind_eq_ok.1 h

theorem bind_of_ok {x : EStateM ε σ α} {f : α → EStateM ε σ β} {s r : σ} {a : α}
    (h : x s = .ok a r) : (x >>= f) s = f a r := by
  show EStateM.bind x f s = _
  simp only [EStateM.bind, h]

theorem bind_of_error {x : EStateM ε σ α} {f : α → EStateM ε σ β} {s t : σ} {e : ε}
    (h : x s = .error e t) : (x >>= f) s = .error e t := by
  show EStateM.bind x f s = _
  simp only [EStateM.bind, h]

/-- A chain fails where its first part does, or where its second does in the state that the first
    left. -/
theorem bind_error {x : EStateM ε σ α} {f : α → EStateM ε σ β} {s t : σ} {e : ε}
    (h : (x >>= f) s = .error e t) :
    x s = .error e t ∨ ∃ a r, x s = .ok a r ∧ f a r = .error e t := by
  change EStateM.bind x f s = _ at h
  unfold EStateM.bind at h
  cases hx : x s with
  | ok a r =>
    rw [hx] at h
    exact .inr ⟨a, r, rfl, h⟩
  | error cause r =>
    rw [hx] at h
    cases h
    exact .inl rfl

theorem pure_ok {a b : α} {s t : σ} (h : (pure a : EStateM ε σ α) s = .ok b t) : b = a ∧ t = s := by
  cases h
  exact ⟨rfl, rfl⟩

/-- A link that only refuses, and did not. -/
theorem refusal_eq_ok {c : Prop} [Decidable c] {e : ε} {k : α → EStateM ε σ β} {u : α} {s t : σ}
    {b : β} :
    (if c then (throw e : EStateM ε σ α) >>= k else k u) s = .ok b t ↔ ¬c ∧ k u s = .ok b t := by
  by_cases hc : c
  · simp only [hc, if_true, not_true, false_and, iff_false]
    intro h
    obtain ⟨_, _, hthrow, _⟩ := bind_ok h
    cases hthrow
  · simp only [hc, if_false, not_false_eq_true, true_and]

/-- A chain behind a link that only refuses fails because that refuses, or by itself. -/
theorem refusal_error {c : Prop} [Decidable c] {e cause : ε} {k : α → EStateM ε σ β}
    {u : α} {s t : σ} (h : (if c then (throw e : EStateM ε σ α) >>= k else k u) s =
      .error cause t) :
    c ∧ t = s ∨ ¬c ∧ k u s = .error cause t := by
  by_cases hc : c
  · simp only [hc, if_true] at h
    rcases bind_error h with hthrow | ⟨_, _, hthrow, -⟩
    · cases hthrow
      exact .inl ⟨hc, rfl⟩
    · cases hthrow
  · simp only [hc, if_false] at h
    exact .inr ⟨hc, h⟩

/-- A link that is there only under a condition. -/
theorem when_ok {c : Prop} [Decidable c] {x : EStateM ε σ Unit} {k : Unit → EStateM ε σ β} {s t : σ}
    {b : β} (h : (if c then x >>= k else k ()) s = .ok b t) :
    ∃ r, (c ∧ x s = .ok () r ∨ ¬c ∧ s = r) ∧ k () r = .ok b t := by
  by_cases hc : c
  · simp only [hc, if_true] at h
    obtain ⟨_, r, hx, hk⟩ := bind_ok h
    exact ⟨r, .inl ⟨hc, hx⟩, hk⟩
  · simp only [hc, if_false] at h
    exact ⟨s, .inr ⟨hc, rfl⟩, h⟩

/-- An action that was lifted ends well exactly when it does itself. -/
theorem lift_eq_ok {x : EStateM ε σ α} {s t : σ} {a : α} :
    (liftM x : EStateM (Fault ε) σ α) s = .ok a t ↔ x s = .ok a t := by
  show liftFault x s = _ ↔ _
  unfold liftFault
  cases h : x s with
  | ok b r => simp
  | error e r => simp

/-- An action that was lifted is refused exactly when it is itself, for the same cause. -/
theorem lift_eq_error {x : EStateM ε σ α} {s t : σ} {e : ε} :
    (liftM x : EStateM (Fault ε) σ α) s = .error (.error e) t ↔ x s = .error e t := by
  show liftFault x s = _ ↔ _
  unfold liftFault
  cases h : x s with
  | ok b r => simp
  | error cause r => simp

/-- A chain that was lifted is the chain of its lifted parts. -/
theorem lift_bind {x : EStateM ε σ α} {f : α → EStateM ε σ β} :
    (liftM (x >>= f) : EStateM (Fault ε) σ β) = liftM x >>= fun a => liftM (f a) := by
  funext s
  show liftFault (EStateM.bind x f) s = EStateM.bind (liftFault x) (fun a => liftFault (f a)) s
  simp only [liftFault, EStateM.bind]
  cases x s <;> rfl

theorem lift_pure (a : α) :
    (liftM (pure a : EStateM ε σ α) : EStateM (Fault ε) σ α) = pure a := rfl

theorem ofOutcome_eq_ok {o : Except ε α} {s t : σ} {a : α} :
    (ofOutcome o : EStateM ε σ α) s = .ok a t ↔ o = .ok a ∧ t = s := by
  unfold ofOutcome
  cases o with
  | ok b => simp [eq_comm]
  | error e => simp

/-! ## 2. Chains without a state -/

/-- **A chain without a state ends well exactly when both parts do.** -/
theorem except_bind_eq_ok {x : Except ε α} {f : α → Except ε β} {b : β} :
    (x >>= f) = .ok b ↔ ∃ a, x = .ok a ∧ f a = .ok b := by
  cases x with
  | ok a => simp [bind, Except.bind]
  | error e => simp [bind, Except.bind]

theorem except_bind_eq_error {x : Except ε α} {f : α → Except ε β} {e : ε} :
    (x >>= f) = .error e ↔ x = .error e ∨ ∃ a, x = .ok a ∧ f a = .error e := by
  cases x with
  | ok a => simp [bind, Except.bind]
  | error cause => simp [bind, Except.bind]

theorem except_map_eq_ok {x : Except ε α} {f : α → β} {b : β} :
    x.map f = .ok b ↔ ∃ a, x = .ok a ∧ f a = b := by
  cases x <;> simp [Except.map]

theorem except_map_eq_error {x : Except ε α} {f : α → β} {e : ε} :
    x.map f = .error e ↔ x = .error e := by
  cases x <;> simp [Except.map]

theorem toOption_eq_some {x : Except ε α} {a : α} : x.toOption = some a ↔ x = .ok a := by
  cases x <;> simp [Except.toOption]

theorem liftError_eq_ok {f : ε → φ} {x : Except ε α} {a : α} :
    liftError f x = .ok a ↔ x = .ok a := by
  cases x <;> simp [liftError]

theorem orOverflow_eq_ok {x : Option α} {a : α} :
    (orOverflow x : Except (Fault ε) α) = .ok a ↔ x = some a := by
  cases x <;> simp [orOverflow]

/-! ## 3. What every outcome preserves -/

/-- What holds of the state before the action holds of it afterwards, whatever the outcome. -/
def Preserves (holds : σ → Prop) (action : EStateM ε σ α) : Prop :=
  ∀ ⦃s : σ⦄, holds s → holds (stateOf (action s))

variable {holds : σ → Prop}

theorem Preserves.ok {action : EStateM ε σ α} {s t : σ} {a : α} (h : Preserves holds action)
    (hs : holds s) (hrun : action s = .ok a t) : holds t := by
  have := h hs
  rwa [hrun] at this

theorem Preserves.error {action : EStateM ε σ α} {s t : σ} {e : ε} (h : Preserves holds action)
    (hs : holds s) (hrun : action s = .error e t) : holds t := by
  have := h hs
  rwa [hrun] at this

theorem preserves_pure (a : α) : Preserves holds (pure a : EStateM ε σ α) := fun _ h => h

theorem preserves_throw (e : ε) : Preserves holds (throw e : EStateM ε σ α) := fun _ h => h

theorem preserves_get : Preserves holds (get : EStateM ε σ σ) := fun _ h => h

theorem preserves_ofOutcome (outcome : Except ε α) :
    Preserves holds (ofOutcome outcome : EStateM ε σ α) := by
  intro s h
  cases outcome <;> exact h

/-- **A chain preserves what its links preserve**; of the second link this is asked only for what
    the first one may answer, in the state that it leaves then. -/
theorem Preserves.bind_ok {x : EStateM ε σ α} {f : α → EStateM ε σ β} (hx : Preserves holds x)
    (hf : ∀ ⦃s t : σ⦄ ⦃a : α⦄, holds s → x s = .ok a t → holds t → holds (stateOf (f a t))) :
    Preserves holds (x >>= f) := by
  intro s h
  show holds (stateOf (EStateM.bind x f s))
  unfold EStateM.bind
  cases hrun : x s with
  | ok a t => exact hf h hrun (hx.ok h hrun)
  | error e t => exact hx.error h hrun

theorem Preserves.bind {x : EStateM ε σ α} {f : α → EStateM ε σ β} (hx : Preserves holds x)
    (hf : ∀ a, Preserves holds (f a)) : Preserves holds (x >>= f) :=
  hx.bind_ok fun _ _ a _ _ ht => hf a ht

theorem preserves_ite {c : Prop} [Decidable c] {x y : EStateM ε σ α} (hx : Preserves holds x)
    (hy : Preserves holds y) : Preserves holds (if c then x else y) := by
  split
  · exact hx
  · exact hy

/-- A refusal before a chain. -/
theorem Preserves.unless {c : Prop} [Decidable c] {e : ε} {f : α → EStateM ε σ β} {u : α}
    (h : Preserves holds (f u)) :
    Preserves holds (if c then (throw e : EStateM ε σ α) >>= f else f u) :=
  preserves_ite (fun _ hs => hs) h

theorem Preserves.lift {action : EStateM ε σ α} (h : Preserves holds action) :
    Preserves holds (liftM action : EStateM (Fault ε) σ α) := by
  intro s hs
  show holds (stateOf (liftFault action s))
  unfold liftFault
  cases hrun : action s with
  | ok a t => exact h.ok hs hrun
  | error e t => exact h.error hs hrun

theorem preserves_forM {item : α → EStateM ε σ PUnit} (h : ∀ a, Preserves holds (item a))
    (items : List α) : Preserves holds (items.forM item) := by
  induction items with
  | nil => exact preserves_pure _
  | cons a items ih => exact (h a).bind (f := fun _ => items.forM item) fun _ => ih

/-! ## 4. Two actions side by side -/

/-- Where `other` ends well, `action` does too and leaves the same state, and the two answers are
    related. -/
def Traces (action : EStateM ε σ α) (other : EStateM φ σ β) (related : α → β → Prop) : Prop :=
  ∀ ⦃s t : σ⦄ ⦃b : β⦄, other s = .ok b t → ∃ a, action s = .ok a t ∧ related a b

section Traces

variable {γ δ : Type} {related : α → β → Prop} {later : γ → δ → Prop}

theorem traces_pure {a : α} {b : β} (h : related a b) :
    Traces (pure a : EStateM ε σ α) (pure b : EStateM φ σ β) related := by
  intro s t c hrun
  obtain ⟨rfl, rfl⟩ := pure_ok hrun
  exact ⟨a, rfl, h⟩

/-- **A chain traces a chain whose links it traces**, the later ones for related answers of the
    earlier. -/
theorem Traces.bind {x : EStateM ε σ α} {y : EStateM φ σ β} {f : α → EStateM ε σ γ}
    {g : β → EStateM φ σ δ} (hx : Traces x y related)
    (hf : ∀ a b, related a b → Traces (f a) (g b) later) : Traces (x >>= f) (y >>= g) later := by
  intro s t d hrun
  obtain ⟨b, r, hy, hg⟩ := bind_ok hrun
  obtain ⟨a, ha, hab⟩ := hx hy
  obtain ⟨c, hc, hcd⟩ := hf a b hab hg
  exact ⟨c, by rw [bind_of_ok ha, hc], hcd⟩

/-- A link that is the same in both, but for what may stop it. -/
theorem Traces.bind_lift {x : EStateM ε σ α} {f : α → EStateM ε σ γ} {g : α → EStateM (Fault ε) σ δ}
    (hf : ∀ a, Traces (f a) (g a) later) : Traces (x >>= f) (liftM x >>= g) later := by
  have hx : Traces x (liftM x : EStateM (Fault ε) σ α) Eq :=
    fun s t a hrun => ⟨a, lift_eq_ok.1 hrun, rfl⟩
  exact hx.bind fun a b hab => hab ▸ hf a

/-- A chain whose last link only puts the answer into place. -/
theorem Traces.bind_pure {x : EStateM ε σ α} {y : EStateM φ σ β} {f : α → γ} {g : β → δ}
    (hx : Traces x y related) (hfg : ∀ a b, related a b → later (f a) (g b)) :
    Traces (x >>= fun a => pure (f a)) (y >>= fun b => pure (g b)) later :=
  hx.bind fun a b hab => traces_pure (hfg a b hab)

/-- A last link that the other chain alone has, and that only puts its answer into place. -/
theorem Traces.of_bind_pure {x : EStateM ε σ α} {y : EStateM φ σ β} {g : β → δ}
    {kept : α → δ → Prop} (hx : Traces x y related) (hg : ∀ a b, related a b → kept a (g b)) :
    Traces x (y >>= fun b => pure (g b)) kept := by
  intro s t d hrun
  obtain ⟨b, r, hy, hdone⟩ := bind_ok hrun
  obtain ⟨rfl, rfl⟩ := pure_ok hdone
  obtain ⟨a, ha, hab⟩ := hx hy
  exact ⟨a, ha, hg a b hab⟩

end Traces

end CodeVault
