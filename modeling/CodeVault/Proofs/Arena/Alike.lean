import CodeVault.Proofs.Arena.Append
import Mathlib.Data.List.Forall2

/-!
# Writing into two arenas side by side

Two arenas are alike (`Alike`) when as much was written to both, and the second has room where the
first has.

* `Mirrors hidden x y`: started in alike arenas, `y` ends well whenever `x` does, with the same
  answer, and what they wrote is the same but for the bytes at `hidden` places;
* **chains mirror each other when their links do** (`Mirrors.bind`), and whatever writes the same
  bytes mirrors itself (`mirrors_write`).
-/

namespace CodeVault

namespace Arena

open Bytes

variable {ε α β γ : Type} {hidden : Nat → Prop} {s t : Arena}

/-! ## 1. Arenas that are alike -/

/-- As much was written to both arenas, the second has room where the first has, and both are marked
    or neither is. -/
structure Alike (s t : Arena) : Prop where
  position : t.position = s.position
  room : s.remaining ≤ t.remaining
  failed : t.failed = s.failed

/-- The arenas are alike, and what was written to them is the same but for the bytes at hidden
    places. -/
structure AlikeBut (hidden : Nat → Prop) (s t : Arena) : Prop extends Alike s t where
  same : ∀ i, ¬ hidden i → t.bytes[i]? = s.bytes[i]?

/-- **Arenas stay alike when as many bytes are written to both**, the same ones where that is not
    hidden. -/
theorem AlikeBut.extend {data other : Bytes} (h : AlikeBut hidden s t)
    (hsize : other.size = data.size)
    (hsame : ∀ i, ¬ hidden (s.position + i) → other[i]? = data[i]?) :
    AlikeBut hidden (s.extend data) (t.extend other) := by
  have hposition : t.bytes.size = s.bytes.size := h.position
  refine ⟨⟨?_, ?_, h.failed⟩, fun i hi => ?_⟩
  · rw [position_extend, position_extend, h.position, hsize]
  · have hroom := h.room
    rw [remaining_extend, remaining_extend, hsize]
    omega
  · rw [bytes_extend, bytes_extend]
    rcases Nat.lt_or_ge i s.bytes.size with hlt | hge
    · rw [Array.getElem?_append_left (by omega), Array.getElem?_append_left hlt, h.same i hi]
    · obtain ⟨k, rfl⟩ := Nat.exists_eq_add_of_le hge
      rw [Array.getElem?_append_right (by omega), Array.getElem?_append_right hge, hposition,
        Nat.add_sub_cancel_left]
      exact hsame k hi

/-! ## 2. Actions side by side -/

/-- If the first outcome is good, so is the second, with the same answer and alike arenas. -/
def Follows (hidden : Nat → Prop) (first second : EStateM.Result ε Arena α) : Prop :=
  ∀ ⦃a s⦄, first = .ok a s → ∃ t, second = .ok a t ∧ AlikeBut hidden s t

/-- Started in alike arenas, the second action follows the first. -/
def Mirrors (hidden : Nat → Prop) (x y : EStateM ε Arena α) : Prop :=
  ∀ ⦃s t⦄, AlikeBut hidden s t → Follows hidden (x s) (y t)

/-- A chain follows another when its first link does, and the rest from wherever that leads. -/
theorem Follows.bind {x y : EStateM ε Arena α} {f g : α → EStateM ε Arena β}
    (hx : Follows hidden (x s) (y t))
    (hf : ∀ ⦃a s' t'⦄, x s = .ok a s' → AlikeBut hidden s' t' → Follows hidden (f a s') (g a t')) :
    Follows hidden ((x >>= f) s) ((y >>= g) t) := by
  intro b last hrun
  obtain ⟨a, middle, hfirst, hrest⟩ := bind_ok hrun
  obtain ⟨other, hother, halike⟩ := hx hfirst
  obtain ⟨after, hafter, hlast⟩ := hf hfirst halike hrest
  exact ⟨after, bind_eq_ok.2 ⟨a, other, hother, hafter⟩, hlast⟩

/-- **A chain mirrors another when its links do.** -/
theorem Mirrors.bind {x y : EStateM ε Arena α} {f g : α → EStateM ε Arena β}
    (hx : Mirrors hidden x y) (hf : ∀ a, Mirrors hidden (f a) (g a)) :
    Mirrors hidden (x >>= f) (y >>= g) :=
  fun _ _ h => (hx h).bind fun a _ _ _ halike => hf a halike

theorem mirrors_pure (a : α) : Mirrors hidden (pure a : EStateM ε Arena α) (pure a) := by
  intro s t h b last hrun
  obtain ⟨rfl, rfl⟩ := pure_ok hrun
  exact ⟨t, rfl, h⟩

/-- A chain that starts by looking at the arena. -/
theorem Follows.bind_get {f g : Arena → EStateM ε Arena β} (h : Follows hidden (f s s) (g t t)) :
    Follows hidden ((get >>= f) s) ((get >>= g) t) := h

theorem Mirrors.bind_get {f g : Arena → EStateM ε Arena β}
    (h : ∀ ⦃s t⦄, AlikeBut hidden s t → Mirrors hidden (f s) (g t)) :
    Mirrors hidden (get >>= f) (get >>= g) :=
  fun _ _ halike => Follows.bind_get (h halike halike)

/-- An outcome that is as good as another, wherever it is needed. -/
theorem mirrors_ofOutcome {first second : Except ε α} (h : ∀ a, first = .ok a → second = .ok a) :
    Mirrors hidden (ofOutcome first : EStateM ε Arena α) (ofOutcome second) := by
  intro s t halike a last hrun
  obtain ⟨hok, rfl⟩ := ofOutcome_eq_ok.1 hrun
  exact ⟨t, ofOutcome_eq_ok.2 ⟨h a hok, rfl⟩, halike⟩

theorem Follows.lift {x y : EStateM ε Arena α} (h : Follows hidden (x s) (y t)) :
    Follows hidden ((liftM x : EStateM (Fault ε) Arena α) s)
      ((liftM y : EStateM (Fault ε) Arena α) t) := by
  intro a last hrun
  obtain ⟨after, hafter, hlast⟩ := h (lift_eq_ok.1 hrun)
  exact ⟨after, lift_eq_ok.2 hafter, hlast⟩

theorem Mirrors.lift {x y : EStateM ε Arena α} (h : Mirrors hidden x y) :
    Mirrors hidden (liftM x : EStateM (Fault ε) Arena α) (liftM y) :=
  fun _ _ halike => (h halike).lift

/-- A refusal before a chain, under the same condition in both. -/
theorem Follows.unless {c : Prop} [Decidable c] {e e' : ε} {f g : α → EStateM ε Arena β} {u : α}
    (h : Follows hidden (f u s) (g u t)) :
    Follows hidden ((if c then (throw e : EStateM ε Arena α) >>= f else f u) s)
      ((if c then (throw e' : EStateM ε Arena α) >>= g else g u) t) := by
  intro a last hrun
  obtain ⟨hc, hrest⟩ := refusal_eq_ok.1 hrun
  obtain ⟨after, hafter, hlast⟩ := h hrest
  exact ⟨after, refusal_eq_ok.2 ⟨hc, hafter⟩, hlast⟩

theorem Mirrors.unless {c : Prop} [Decidable c] {e e' : ε} {f g : α → EStateM ε Arena β} {u : α}
    (h : Mirrors hidden (f u) (g u)) :
    Mirrors hidden (if c then (throw e : EStateM ε Arena α) >>= f else f u)
      (if c then (throw e' : EStateM ε Arena α) >>= g else g u) :=
  fun _ _ halike => Follows.unless (h halike)

theorem mirrors_ite {c : Prop} [Decidable c] {x x' y y' : EStateM ε Arena α}
    (hx : Mirrors hidden x y) (hx' : Mirrors hidden x' y') :
    Mirrors hidden (if c then x else x') (if c then y else y') := by
  split
  · exact hx
  · exact hx'

/-- A link that is there only under a condition, the same in both. -/
theorem Mirrors.when {c : Prop} [Decidable c] {x y : EStateM ε Arena Unit}
    {f g : Unit → EStateM ε Arena β} (hx : Mirrors hidden x y) (hf : Mirrors hidden (f ()) (g ())) :
    Mirrors hidden (if c then x >>= f else f ()) (if c then y >>= g else g ()) :=
  mirrors_ite (hx.bind fun _ => hf) hf

/-- **Loops over lists mirror each other when they do so item by item.** -/
theorem mirrors_forM {related : α → γ → Prop} {item : α → EStateM ε Arena PUnit}
    {other : γ → EStateM ε Arena PUnit} {items : List α} {others : List γ}
    (h : List.Forall₂ related items others)
    (hitem : ∀ a c, related a c → Mirrors hidden (item a) (other c)) :
    Mirrors hidden (items.forM item) (others.forM other) := by
  induction h with
  | nil => exact mirrors_pure _
  | cons hfirst _ ih =>
    exact Mirrors.bind (f := fun _ => List.forM _ item) (g := fun _ => List.forM _ other)
      (hitem _ _ hfirst) fun _ => ih

/-- A loop over one list, whose body mirrors itself. -/
theorem mirrors_forM_self {item : α → EStateM ε Arena PUnit}
    (hitem : ∀ a, Mirrors hidden (item a) (item a)) (items : List α) :
    Mirrors hidden (items.forM item) (items.forM item) :=
  mirrors_forM (List.forall₂_same.2 fun _ _ => rfl) fun a _ h => h ▸ hitem a

/-! ## 3. Writing -/

theorem write_eq_ok {data : Bytes} {arena after : Arena} {offset : Nat} :
    write data arena = .ok offset after ↔ arena.failed = false ∧ data.size ≤ arena.remaining ∧
      offset = arena.position ∧ after = arena.extend data := by
  constructor
  · intro h
    obtain ⟨hoffset, hafter⟩ := write_ok h
    obtain ⟨⟨⟩, middle, hensure, -⟩ := bind_ok h
    rcases ensure_cases data.size arena with ⟨-, hnone⟩ | ⟨hsound, hroom, -⟩ | ⟨-, -, hnone⟩
    · cases hnone.symm.trans hensure
    · exact ⟨hsound, hroom, hoffset, hafter⟩
    · cases hnone.symm.trans hensure
  · rintro ⟨hfailed, hroom, rfl, rfl⟩
    refine bind_eq_ok.2 ⟨(), arena, ?_, rfl⟩
    simp only [ensure, hfailed, Bool.false_eq_true, if_false, Nat.not_lt.2 hroom]

/-- Bytes that are written in one arena, and as many in the other. -/
theorem follows_write {data other : Bytes} (h : AlikeBut hidden s t)
    (hsize : other.size = data.size)
    (hsame : ∀ i, ¬ hidden (s.position + i) → other[i]? = data[i]?) :
    Follows hidden (write data s) (write other t) := by
  intro offset after hrun
  obtain ⟨hfailed, hroom, rfl, rfl⟩ := write_eq_ok.1 hrun
  refine ⟨t.extend other, write_eq_ok.2 ⟨?_, ?_, h.position.symm, rfl⟩, h.extend hsize hsame⟩
  · rw [h.failed, hfailed]
  · rw [hsize]
    exact Nat.le_trans hroom h.room

/-- **The same bytes are written to both.** -/
theorem mirrors_write (data : Bytes) : Mirrors hidden (write data) (write data) :=
  fun _ _ h => follows_write h rfl fun _ _ => rfl

theorem mirrors_align : Mirrors hidden align align := by
  refine Mirrors.bind_get fun s t h => ?_
  rw [h.position]
  exact mirrors_ite ((mirrors_write _).bind fun _ => mirrors_pure _) (mirrors_pure _)

/-- **The same word is written over the same bytes in both.** -/
theorem mirrors_patchU32 (pos : Nat) (value : UInt32) :
    Mirrors hidden (patchU32 pos value) (patchU32 pos value) := by
  intro s t h u after hrun
  have hsize : t.bytes.size = s.bytes.size := h.position
  rcases patchU32_cases pos value s with ⟨-, hpatch⟩ | ⟨-, -, hpatch⟩ | ⟨hspace, hend, hpatch⟩ <;>
    cases hpatch.symm.trans hrun
  have hroom : pos + (ofU32 value).size ≤ s.bytes.size := by
    rw [size_ofU32]
    exact hend
  have hroom' : pos + (ofU32 value).size ≤ t.bytes.size := hsize ▸ hroom
  refine ⟨{ t with bytes := t.bytes.overwrite pos (ofU32 value) }, ?_, ⟨?_, ?_, h.failed⟩,
    fun i hi => ?_⟩
  · rw [size_ofU32] at hroom'
    rw [patchU32, if_neg (Nat.not_le.2 hspace), if_neg (Nat.not_lt.2 hroom')]
  · show (t.bytes.overwrite pos _).size = (s.bytes.overwrite pos _).size
    rw [size_overwrite hroom, size_overwrite hroom', hsize]
  · have hleft := h.room
    simp only [remaining, size_overwrite hroom, size_overwrite hroom'] at hleft ⊢
    exact hleft
  · show (t.bytes.overwrite pos _)[i]? = (s.bytes.overwrite pos _)[i]?
    rw [getElem?_overwrite hroom, getElem?_overwrite hroom', h.same i hi]

theorem mirrors_writeString (text : String) :
    Mirrors hidden (writeString text) (writeString text) :=
  Mirrors.unless ((mirrors_write _).bind fun _ => (mirrors_write _).bind fun _ => mirrors_pure _)

theorem mirrors_writeCString (text : String) :
    Mirrors hidden (writeCString text) (writeCString text) :=
  Mirrors.unless ((mirrors_write _).bind fun _ => mirrors_pure _)

end Arena

end CodeVault
