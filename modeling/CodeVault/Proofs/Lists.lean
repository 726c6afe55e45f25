import Mathlib.Data.List.Count
import Mathlib.Data.List.Forall2
import Mathlib.Data.List.Nodup

/-!
# Lists

* lists that are related item by item, and through a list between them;
* the first place with a property, in a list and in an array;
* what is forgotten in a table of keys;
* the last item that has a property;
* as many places as there are in all are all of them exactly when none repeats (`covers_iff_nodup`);
* what happens to the items of a list when others are taken out of it: **an item stays where it is
  exactly when everything was taken from before it** (`getElem?_diff_iff`).
-/

namespace CodeVault

/-! ## 1. Item by item -/

/-- Lists that are related through a list between them. -/
theorem forall₂_comp {α β γ : Type} {R : α → β → Prop} {S : β → γ → Prop} {as : List α}
    {bs : List β} {cs : List γ} (h : List.Forall₂ R as bs) (h' : List.Forall₂ S bs cs) :
    List.Forall₂ (fun a c => ∃ b, R a b ∧ S b c) as cs := by
  induction h generalizing cs with
  | nil =>
    cases h'
    exact .nil
  | cons hab _ ih =>
    cases h' with
    | cons hbc hrest => exact .cons ⟨_, hab, hbc⟩ (ih hrest)

theorem exists_of_forall₂ {α β : Type} {R : α → β → Prop} {as : List α} {bs : List β}
    (h : List.Forall₂ R as bs) {b : β} (hmem : b ∈ bs) : ∃ a ∈ as, R a b := by
  induction h with
  | nil => cases hmem
  | cons hab _ ih =>
    rcases List.mem_cons.1 hmem with rfl | hmem
    · exact ⟨_, List.mem_cons_self, hab⟩
    · obtain ⟨a, ha, hab⟩ := ih hmem
      exact ⟨a, List.mem_cons_of_mem _ ha, hab⟩

theorem exists_getElem?_of_forall₂ {α β : Type} {R : α → β → Prop} {as : List α} {bs : List β}
    (h : List.Forall₂ R as bs) {i : Nat} {a : α} (ha : as[i]? = some a) :
    ∃ b, bs[i]? = some b ∧ R a b := by
  induction h generalizing i with
  | nil => cases ha
  | cons hab _ ih =>
    cases i with
    | zero =>
      cases ha
      exact ⟨_, rfl, hab⟩
    | succ i => exact ih ha

theorem forall₂_range {α : Type} (items : List α) :
    List.Forall₂ (fun i a => items[i]? = some a) (List.range items.length) items := by
  induction items with
  | nil => exact .nil
  | cons a items ih =>
    rw [List.length_cons, List.range_succ_eq_map]
    exact .cons rfl (List.forall₂_map_left_iff.2 ih)

/-- Lists are related when they are at each place. -/
theorem forall₂_of_getElem? {α β : Type} {R : α → β → Prop} {as : List α} {bs : List β}
    (h : ∀ i : Nat, Option.Rel R as[i]? bs[i]?) : List.Forall₂ R as bs := by
  induction as generalizing bs with
  | nil =>
    cases bs with
    | nil => exact .nil
    | cons b bs => cases h 0
  | cons a as ih =>
    cases bs with
    | nil => cases h 0
    | cons b bs =>
      have hfirst : Option.Rel R (some a) (some b) := h 0
      cases hfirst with
      | some hrel => exact .cons hrel (ih fun i => h (i + 1))

/-! ## 2. First places -/

theorem findIdx?_toList {α : Type} (items : Array α) (p : α → Bool) :
    items.toList.findIdx? p = items.findIdx? p := by
  rw [← List.findIdx?_toArray, Array.toArray_toList]

/-- Properties that the items of a list do not tell apart have the same first place. -/
theorem findIdx?_congr {α : Type} {items : List α} {p q : α → Bool} (h : ∀ a ∈ items, p a = q a) :
    items.findIdx? p = items.findIdx? q := by
  induction items with
  | nil => rfl
  | cons a items ih =>
    rw [List.findIdx?_cons, List.findIdx?_cons, h a List.mem_cons_self,
      ih fun b hmem => h b (List.mem_cons_of_mem a hmem)]

/-- The first place of a list is the first of its numbers at which the item has the property. -/
theorem find?_range_eq_findIdx? {α : Type} {items : List α} {p : α → Bool}
    {q : Nat → Bool} {n : Nat} (hlength : items.length = n)
    (h : ∀ i a, items[i]? = some a → q i = p a) :
    (List.range n).find? q = items.findIdx? p := by
  subst hlength
  cases hfound : items.findIdx? p with
  | none =>
    refine List.find?_eq_none.2 fun i hmem => ?_
    have hat := List.getElem?_eq_getElem (List.mem_range.1 hmem)
    rw [h i _ hat, List.findIdx?_eq_none_iff.1 hfound _ (List.getElem_mem _)]
    exact Bool.false_ne_true
  | some place =>
    obtain ⟨hlt, hplace, hbefore⟩ := List.findIdx?_eq_some_iff_getElem.1 hfound
    refine List.find?_range_eq_some.2 ⟨?_, List.mem_range.2 hlt, fun earlier hearlier => ?_⟩
    · rw [h place _ (List.getElem?_eq_getElem hlt), hplace]
    · rw [h earlier _ (List.getElem?_eq_getElem (Nat.lt_trans hearlier hlt))]
      simpa using hbefore earlier hearlier

/-! ## 3. Tables -/

/-- What is found under a key is in the table. -/
theorem mem_of_lookup {α β : Type} [BEq α] [LawfulBEq α] {entries : List (α × β)} {key : α}
    {value : β} (h : entries.lookup key = some value) : (key, value) ∈ entries := by
  obtain ⟨before, after, rfl, -⟩ := List.lookup_eq_some_iff.1 h
  exact List.mem_append_right before List.mem_cons_self

/-- What is forgotten under one key is still there under the others. -/
theorem lookup_filter_of_ne {α β : Type} [BEq α] [LawfulBEq α] {entries : List (α × β)}
    {key other : α} (hne : other ≠ key) :
    (entries.filter (·.1 != key)).lookup other = entries.lookup other := by
  induction entries with
  | nil => rfl
  | cons entry entries ih =>
    obtain ⟨first, value⟩ := entry
    by_cases hkey : first = key
    · subst hkey
      simp [List.lookup_cons, beq_eq_false_iff_ne.2 hne, ih]
    · simp [List.lookup_cons, hkey, ih]

/-! ## 4. The last of those that have a property -/

/-- The last of those that have a property is behind all others that have it. -/
theorem getLast?_filter_eq_some {α : Type} {items : List α} {p : α → Bool} {last : α}
    (h : (items.filter p).getLast? = some last) :
    p last = true ∧ ∃ earlier later, items = earlier ++ last :: later ∧ ∀ item ∈ later,
      p item = false := by
  rw [List.getLast?_filter] at h
  obtain ⟨hlast, before, after, hparts, hbefore⟩ := List.find?_eq_some_iff_append.1 h
  refine ⟨hlast, after.reverse, before.reverse, ?_, fun item hmem => ?_⟩
  · have hback := congrArg List.reverse hparts
    simpa using hback
  · simpa using hbefore item (List.mem_reverse.1 hmem)

/-! ## 5. All places -/

/-- **As many places as there are in all, each of them inside, are all of them exactly when none is
    there twice.** -/
theorem covers_iff_nodup {places : List Nat} {count : Nat} (hlength : places.length = count)
    (hinside : ∀ place ∈ places, place < count) :
    (∀ place < count, place ∈ places) ↔ places.Nodup := by
  constructor
  · intro hcovers
    have hsub : (List.range count).Subperm places :=
      List.subperm_of_subset List.nodup_range fun place hmem =>
        hcovers place (List.mem_range.1 hmem)
    have hperm : (List.range count).Perm places :=
      hsub.perm_of_length_le (Nat.le_of_eq (hlength.trans List.length_range.symm))
    exact hperm.nodup_iff.1 List.nodup_range
  · intro hnodup place hplace
    have hsub : places.Subperm (List.range count) :=
      List.subperm_of_subset hnodup fun place hmem => List.mem_range.2 (hinside place hmem)
    have hperm : places.Perm (List.range count) :=
      hsub.perm_of_length_le (Nat.le_of_eq (List.length_range.trans hlength.symm))
    exact hperm.mem_iff.2 (List.mem_range.2 hplace)

/-! ## 6. Taking items out -/

section Diff

variable {α : Type} [BEq α] [LawfulBEq α]

theorem exists_getElem?_of_erase {items : List α} {a t : α} {m : Nat}
    (h : (items.erase a)[m]? = some t) :
    ∃ m' ≤ m + 1, items[m']? = some t := by
  by_cases ha : a ∈ items
  · obtain ⟨front, back, -, rfl, herase⟩ := List.exists_erase_eq ha
    rw [herase] at h
    rcases Nat.lt_or_ge m front.length with hlt | hge
    · refine ⟨m, by omega, ?_⟩
      rwa [List.getElem?_append_left hlt] at h ⊢
    · refine ⟨m + 1, by omega, ?_⟩
      rw [List.getElem?_append_right (by omega)] at h ⊢
      rwa [Nat.sub_add_comm hge, List.getElem?_cons_succ]
  · rw [List.erase_of_not_mem ha] at h
    exact ⟨m, by omega, h⟩

/-- What is left of a list was further back before, by at most as much as was taken out. -/
theorem exists_getElem?_of_diff {items taken : List α} {t : α} {m : Nat}
    (h : (items.diff taken)[m]? = some t) : ∃ m' ≤ m + taken.length, items[m']? = some t := by
  induction taken generalizing items with
  | nil => exact ⟨m, Nat.le_refl _, h⟩
  | cons a taken ih =>
    rw [List.diff_cons] at h
    obtain ⟨m', hle, hrest⟩ := ih h
    obtain ⟨m'', hle', hitems⟩ := exists_getElem?_of_erase hrest
    exact ⟨m'', by rw [List.length_cons]; omega, hitems⟩

theorem cons_subperm_iff {a : α} {taken items : List α} (ha : a ∈ items) :
    List.Subperm (a :: taken) items ↔ List.Subperm taken (items.erase a) := by
  rw [(List.perm_cons_erase ha).subperm_left, List.subperm_cons]

theorem length_le_add_diff (items taken : List α) :
    items.length ≤ (items.diff taken).length + taken.length := by
  induction taken generalizing items with
  | nil => exact Nat.le_refl _
  | cons a taken ih =>
    have hfirst := List.le_length_erase (a := a) (l := items)
    have hrest := ih (items.erase a)
    rw [List.diff_cons, List.length_cons]
    omega

/-- What is taken out of the front of a list does not touch the rest. -/
theorem diff_append_of_subperm {front taken : List α} (h : taken.Subperm front) (back : List α) :
    (front ++ back).diff taken = front.diff taken ++ back := by
  induction taken generalizing front with
  | nil => rfl
  | cons a taken ih =>
    have ha : a ∈ front := h.subset List.mem_cons_self
    rw [List.diff_cons, List.diff_cons, List.erase_append_left _ ha, ih ((cons_subperm_iff ha).1 h)]

/-- What is taken out of a list, and what is left of it, are the list. -/
theorem append_diff_perm {items taken : List α} (h : taken.Subperm items) :
    (taken ++ items.diff taken).Perm items :=
  List.subperm_append_diff_self_of_count_le (List.subperm_ext_iff.1 h)

theorem length_diff_of_subperm {items taken : List α} (h : taken.Subperm items) :
    (items.diff taken).length = items.length - taken.length := by
  have := (append_diff_perm h).length_eq
  rw [List.length_append] at this
  omega

/-- Where an item is that was behind as many as are taken out: where it would be if all of them came
    from before it, or not at all. -/
theorem getElem?_diff_append {front taken : List α} {t : α} (hfresh : t ∉ front)
    (hle : taken.length ≤ front.length) (back : List α) :
    ((front ++ t :: back).diff taken)[front.length - taken.length]? = some t ↔
      taken.Subperm front := by
  constructor
  · intro h
    induction taken generalizing front with
    | nil => exact List.nil_subperm
    | cons a taken ih =>
      rw [List.length_cons] at h hle
      rw [List.diff_cons] at h
      by_cases ha : a ∈ front
      · rw [cons_subperm_iff ha]
        have hlength := List.length_erase_of_mem ha
        rw [List.erase_append_left _ ha] at h
        refine ih (fun hmem => hfresh (List.mem_of_mem_erase hmem)) (by omega) ?_
        rwa [hlength, Nat.sub_sub, Nat.add_comm 1]
      · -- Whatever is at that place now was before the item, which is not there.
        obtain ⟨m, hm, hrest⟩ := exists_getElem?_of_diff h
        rw [List.erase_append_right _ ha, List.getElem?_append_left (by omega)] at hrest
        exact absurd (List.mem_of_getElem? hrest) hfresh
  · intro h
    rw [diff_append_of_subperm h, ← length_diff_of_subperm h,
      List.getElem?_append_right (Nat.le_refl _), Nat.sub_self, List.getElem?_cons_zero]

/-- **If as many items are put in front of a list as are taken out of it, an item stays where it is
    exactly when everything was taken from before it.** -/
theorem getElem?_diff_iff {items taken : List α} {k : Nat} (hnodup : items.Nodup)
    (hk : k < items.length) (hle : taken.length ≤ k) :
    (items.diff taken)[k - taken.length]? = items[k]? ↔ taken.Subperm (items.take k) := by
  have hparts : items.take k ++ items[k] :: items.drop (k + 1) = items := by
    rw [← List.drop_eq_getElem_cons hk, List.take_append_drop]
  have hfresh : items[k] ∉ items.take k := by
    rw [← hparts, List.nodup_middle] at hnodup
    exact fun hmem => (List.nodup_cons.1 hnodup).1 (List.mem_append_left _ hmem)
  have hlength : (items.take k).length = k := by
    rw [List.length_take]
    omega
  rw [List.getElem?_eq_getElem hk, ← getElem?_diff_append hfresh (by omega) (items.drop (k + 1)),
    hparts, hlength]

/-- In front of that item are then the items that were there. -/
theorem append_take_diff_perm {items taken : List α} {k : Nat} (hk : k ≤ items.length)
    (h : taken.Subperm (items.take k)) :
    (taken ++ (items.diff taken).take (k - taken.length)).Perm (items.take k) := by
  have hlength : (items.take k).length = k := by
    rw [List.length_take, Nat.min_eq_left hk]
  have hleft : (items.diff taken).take (k - taken.length) = (items.take k).diff taken := by
    have hsame := diff_append_of_subperm h (items.drop k)
    rw [List.take_append_drop] at hsame
    have hcount := length_diff_of_subperm h
    rw [hlength] at hcount
    rw [hsame, ← hcount, List.take_left]
  rw [hleft]
  exact append_diff_perm h

end Diff

end CodeVault
