import CodeVault.Proofs.Cursor.Reads

/-!
# What an action answers

* `Answers property action`: whatever the action answers, wherever it is run, has the property;
* a chain answers what its last link does (`Answers.bind`), knowing what the links before it answer
  (`Answers.bind_of`).
-/

namespace CodeVault

open Bytes Cursor

/-- Whatever the action answers has the property. -/
def Answers {ε σ α : Type} (property : α → Prop) (action : EStateM ε σ α) : Prop :=
  ∀ ⦃s t : σ⦄ ⦃a : α⦄, action s = .ok a t → property a

section Answers

variable {ε σ α β : Type} {property : α → Prop}

theorem answers_pure {a : α} (h : property a) : Answers property (pure a : EStateM ε σ α) := by
  intro s t b hrun
  obtain ⟨rfl, -⟩ := pure_ok hrun
  exact h

theorem answers_throw (e : ε) :
    Answers property (throw e : EStateM ε σ α) := fun _ _ _ h => nomatch h

/-- What is answered at the end of a chain, where something is known of what its first link
    answers. -/
theorem Answers.bind_of {earlier : β → Prop} {x : EStateM ε σ β} {f : β → EStateM ε σ α}
    (hx : Answers earlier x) (hf : ∀ b, earlier b → Answers property (f b)) :
    Answers property (x >>= f) := by
  intro s t a hrun
  obtain ⟨b, middle, hfirst, hrest⟩ := bind_ok hrun
  exact hf b (hx hfirst) hrest

theorem Answers.bind {x : EStateM ε σ β} {f : β → EStateM ε σ α} (h : ∀ b, Answers property (f b)) :
    Answers property (x >>= f) :=
  have hx : Answers (fun _ => True) x := fun _ _ _ _ => trivial
  hx.bind_of fun b _ => h b

/-- A link that is there only under a condition. -/
theorem answers_when {c : Prop} [Decidable c] {x : EStateM ε σ β} {f : β → EStateM ε σ α} {u : β}
    (h : ∀ b, Answers property (f b)) : Answers property (if c then x >>= f else f u) := by
  split
  · exact Answers.bind h
  · exact h u

/-- A check before the rest. -/
theorem answers_unless {c : Prop} [Decidable c] {e : ε} {f : β → EStateM ε σ α} {u : β}
    (h : ¬c → Answers property (f u)) :
    Answers property (if c then (throw e : EStateM ε σ β) >>= f else f u) := by
  intro s t a hrun
  obtain ⟨hc, hrest⟩ := refusal_eq_ok.1 hrun
  exact h hc hrest

/-- **Bytes are as many as were asked for.** -/
theorem answers_readBytes (n : Nat) :
    Answers (fun bytes : Bytes => bytes.size = n) (readBytes n) := by
  intro cursor after bytes hrun
  unfold readBytes at hrun
  split at hrun
  · cases hrun
    rw [Array.size_extract]
    omega
  · cases hrun

theorem answers_readMany {item : Reading α} (h : Answers property item) (count : Nat) :
    Answers (fun items => items.length = count ∧ ∀ a ∈ items, property a)
      (readMany item count) := by
  induction count with
  | zero => exact answers_pure ⟨rfl, by simp⟩
  | succ count ih =>
    refine h.bind_of fun first hfirst => ih.bind_of fun rest ⟨hlength, hothers⟩ =>
      answers_pure ⟨?_, ?_⟩
    · rw [List.length_cons, hlength]
    · exact List.forall_mem_cons.2 ⟨hfirst, hothers⟩

theorem Answers.of_runAt {action : Reading α} {data : Bytes} {pos : Nat} {a : α}
    (h : Answers property action) (hrun : runAt data pos action = .ok a) : property a := by
  unfold runAt at hrun
  split at hrun
  · rename_i hok
    obtain ⟨_, middle, -, haction⟩ := bind_ok hok
    cases hrun
    exact h haction
  · cases hrun

end Answers

end CodeVault
