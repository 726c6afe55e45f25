import CodeVault.Proofs.Cursor.Answers
import CodeVault.Proofs.Cursor.Refusals

/-!
# Actions that never stop the process

Decoding computes with addresses, and a sum of addresses may stop the process.

* `Safe property action`: the action never stops the process, and what it answers has the property;
* **chains are safe when their links are**, each for what the one before it answers (`Safe.bind`);
  what only reads is safe in any case (`Safe.lift`).
-/

namespace CodeVault

open Cursor

variable {α β : Type}

/-! ## 1. Errors -/

/-- An error that the caller handles; the process goes on. -/
def Fault.IsError {ε : Type} (fault : Fault ε) : Prop := ∃ cause, fault = .error cause

theorem isError_of_liftError {ε φ : Type} {f : ε → φ} {x : Except ε α} {fault : Fault φ}
    (h : liftError f x = .error fault) : fault.IsError := by
  cases x with
  | ok a => cases h
  | error cause =>
    cases h
    exact ⟨_, rfl⟩

theorem Fault.IsError.map {ε φ : Type} {fault : Fault ε} (h : fault.IsError) (f : ε → φ) :
    (fault.map f).IsError := by
  obtain ⟨cause, rfl⟩ := h
  exact ⟨_, rfl⟩

theorem isError_of_map {ε : Type} {x : Except (Fault ε) α} {f : α → β} {fault : Fault ε}
    (hx : ∀ fault, x = .error fault → fault.IsError) (h : x.map f = .error fault) : fault.IsError :=
  hx fault (except_map_eq_error.1 h)

/-! ## 2. Safe actions -/

/-- The action never stops the process, and whatever it answers has the property. -/
structure Safe (property : α → Prop) (action : Decoding α) : Prop where
  answers : Answers property action
  refuses : Refuses Fault.IsError action

section Safe

variable {property : α → Prop}

theorem safe_pure {a : α} (h : property a) : Safe property (pure a : Decoding α) :=
  ⟨answers_pure h, refuses_pure a⟩

theorem safe_throw {fault : Fault CacheError} (h : fault.IsError) :
    Safe property (throw fault : Decoding α) :=
  ⟨answers_throw fault, refuses_throw h⟩

/-- **A chain is safe when its links are**, each for what the one before it answers. -/
theorem Safe.bind {earlier : β → Prop} {x : Decoding β} {f : β → Decoding α} (hx : Safe earlier x)
    (hf : ∀ b, earlier b → Safe property (f b)) : Safe property (x >>= f) := by
  refine ⟨hx.answers.bind_of fun b hb => (hf b hb).answers, fun s t fault hrun => ?_⟩
  rcases bind_error hrun with hfirst | ⟨b, middle, hfirst, hrest⟩
  · exact hx.refuses hfirst
  · exact (hf b (hx.answers hfirst)).refuses hrest

theorem safe_ite {c : Prop} [Decidable c] {x y : Decoding α} (hx : c → Safe property x)
    (hy : ¬c → Safe property y) :
    Safe property (if c then x else y) := by
  split
  · exact hx ‹_›
  · exact hy ‹_›

/-- **What only reads never stops the process.** -/
theorem Safe.lift {action : Reading α} (h : Answers property action) :
    Safe property (liftM action : Decoding α) := by
  refine ⟨fun s t a hrun => h (lift_eq_ok.1 hrun), fun s t fault hrun => ?_⟩
  change liftFault action s = _ at hrun
  unfold liftFault at hrun
  split at hrun <;> cases hrun
  exact ⟨_, rfl⟩

/-- A link of which nothing is known but that it only reads. -/
theorem Safe.lift_bind {x : Reading β} {f : β → Decoding α} (hf : ∀ b, Safe property (f b)) :
    Safe property (liftM x >>= f) :=
  have hx : Answers (fun _ => True) x := fun _ _ _ _ => trivial
  (Safe.lift hx).bind fun b _ => hf b

end Safe

end CodeVault
