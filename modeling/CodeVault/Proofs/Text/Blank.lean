import CodeVault.Text.Blank
import Mathlib.Data.List.TakeWhile

/-!
# What is left of a text without the blanks around it

* `AllBlank`: a text of blank characters only; `BareEnds`: a text with no blank character at either
  end;
* **what is left of a text has bare ends and stands between blanks, and nothing else does**
  (`trimBlanks_eq_iff`);
* a text that does not begin with a blank only loses blanks behind it (`eq_trimBlanks_append`).
-/

namespace CodeVault

variable {cs core front back : List Char}

/-- There are blank characters only. -/
def AllBlank (cs : List Char) : Prop := ∀ c ∈ cs, isBlank c = true

/-- The first character, if there is one, is not blank. -/
def BareStart (cs : List Char) : Prop := ∀ c ∈ cs.head?, isBlank c = false

/-- No blank character is at either end. -/
structure BareEnds (cs : List Char) : Prop where
  start : BareStart cs
  finish : BareStart cs.reverse

theorem allBlank_nil : AllBlank [] := fun _ hmem => absurd hmem List.not_mem_nil

theorem AllBlank.reverse (h : AllBlank cs) :
    AllBlank cs.reverse := fun c hmem => h c (List.mem_reverse.1 hmem)

theorem BareStart.of_append (h : BareStart (front ++ back)) : BareStart front := by
  intro c hmem
  refine h c ?_
  rw [List.head?_append, Option.mem_def.1 hmem]
  rfl

/-! ## 1. The blanks in front -/

theorem BareStart.dropWhile_eq (h : BareStart cs) : cs.dropWhile isBlank = cs := by
  cases cs with
  | nil => rfl
  | cons c rest => exact List.dropWhile_cons_of_neg (by simp [h c rfl])

theorem dropWhile_append (hfront : AllBlank front) (hcore : BareStart core) :
    (front ++ core).dropWhile isBlank = core := by
  rw [List.dropWhile_append_of_pos hfront, hcore.dropWhile_eq]

theorem bareStart_dropWhile (cs : List Char) : BareStart (cs.dropWhile isBlank) := by
  intro c hmem
  have hhead := List.head?_dropWhile_not isBlank cs
  rw [Option.mem_def.1 hmem] at hhead
  exact hhead

/-- The blanks in front of a text are what it loses there. -/
theorem exists_blanks (cs : List Char) :
    ∃ front, AllBlank front ∧ cs = front ++ cs.dropWhile isBlank :=
  ⟨cs.takeWhile isBlank, fun _ hmem => List.mem_takeWhile_imp hmem,
    List.takeWhile_append_dropWhile.symm⟩

/-! ## 2. The blanks on both sides -/

/-- The blanks behind a text are what it loses after those in front. -/
theorem exists_blanks_behind (cs : List Char) :
    ∃ back, AllBlank back ∧ cs.dropWhile isBlank = trimBlanks cs ++ back := by
  obtain ⟨back, hback, hparts⟩ := exists_blanks (cs.dropWhile isBlank).reverse
  refine ⟨back.reverse, hback.reverse, ?_⟩
  rw [trimBlanks, ← List.reverse_append, ← hparts, List.reverse_reverse]

/-- **A text that does not begin with a blank only loses blanks behind it.** -/
theorem eq_trimBlanks_append (h : BareStart cs) :
    ∃ back, AllBlank back ∧ cs = trimBlanks cs ++ back := by
  obtain ⟨back, hback, hrest⟩ := exists_blanks_behind cs
  rw [h.dropWhile_eq] at hrest
  exact ⟨back, hback, hrest⟩

theorem exists_surrounding (cs : List Char) :
    ∃ front back, AllBlank front ∧ AllBlank back ∧ cs = front ++ trimBlanks cs ++ back := by
  obtain ⟨front, hfront, hparts⟩ := exists_blanks cs
  obtain ⟨back, hback, hrest⟩ := exists_blanks_behind cs
  exact ⟨front, back, hfront, hback, by rw [List.append_assoc, ← hrest, ← hparts]⟩

theorem bareEnds_trimBlanks (cs : List Char) : BareEnds (trimBlanks cs) where
  start := by
    -- What is left begins as the text does behind the blanks in front.
    obtain ⟨back, -, hrest⟩ := exists_blanks_behind cs
    have hstart := bareStart_dropWhile cs
    rw [hrest] at hstart
    exact hstart.of_append
  finish := by
    rw [trimBlanks, List.reverse_reverse]
    exact bareStart_dropWhile _

theorem trimBlanks_surrounded (hfront : AllBlank front) (hback : AllBlank back)
    (hcore : BareEnds core) :
    trimBlanks (front ++ core ++ back) = core := by
  cases core with
  | nil =>
    have hall : AllBlank (front ++ back) :=
      fun c hmem => (List.mem_append.1 hmem).elim (hfront c) (hback c)
    rw [trimBlanks, List.append_nil, List.dropWhile_eq_nil_iff.2 hall]
    rfl
  | cons first rest =>
    have hbehind : BareStart (first :: rest ++ back) := hcore.start
    rw [trimBlanks, List.append_assoc, dropWhile_append hfront hbehind, List.reverse_append,
      dropWhile_append hback.reverse hcore.finish, List.reverse_reverse]

/-- **What is left of a text has bare ends and stands between blanks**, and nothing else does. -/
theorem trimBlanks_eq_iff : trimBlanks cs = core ↔
    BareEnds core ∧ ∃ front back, AllBlank front ∧ AllBlank back ∧ cs = front ++ core ++ back := by
  constructor
  · rintro rfl
    exact ⟨bareEnds_trimBlanks cs, exists_surrounding cs⟩
  · rintro ⟨hcore, front, back, hfront, hback, rfl⟩
    exact trimBlanks_surrounded hfront hback hcore

theorem BareEnds.trimBlanks_eq (h : BareEnds core) : trimBlanks core = core :=
  trimBlanks_eq_iff.2 ⟨h, [], [], allBlank_nil, allBlank_nil, (List.append_nil _).symm⟩

end CodeVault
