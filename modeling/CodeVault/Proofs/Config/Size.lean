import CodeVault.Config.Size
import CodeVault.Proofs.Text.Blank
import Mathlib.Data.List.Basic
import Mathlib.Data.List.Induction
import Mathlib.Data.Nat.Digits.Defs

/-!
# Which texts are sizes

* `IsSize`: how a size is written, from the digits outwards (`IsNumeral`, `IsSigned`, `IsScale`);
* **the digits that a size is split into are those that a scale stands behind**
  (`trimBlanks_splitSize_iff`);
* `readByPlaces` finds the last character by the byte at which it begins. It would have to stop at a
  byte inside a character, and at a letter that stands for more than a word holds; it never does
  (`readByPlaces_eq`);
* **a text is read as a size exactly if it is written as one** (`size_read_iff_written`).
-/

namespace CodeVault.Config

variable {cs core number digits scale gap part : List Char} {c last : Char} {d n shift : Nat}
  {value : String}

/-! ## 1. How a size is written -/

/-- The number that a decimal digit stands for. -/
def digitValue (c : Char) : Nat := c.toNat - '0'.toNat

/-- Decimal digits, at least one, that spell a number. -/
structure IsNumeral (digits : List Char) (d : Nat) : Prop where
  ne_nil : digits ≠ []
  isDigit : ∀ c ∈ digits, c.isDigit = true
  value : Nat.ofDigits 10 (digits.reverse.map digitValue) = d

/-- A numeral, perhaps behind a plus sign. -/
inductive IsSigned : List Char → Nat → Prop where
  | bare {digits : List Char} {d : Nat} (hdigits : IsNumeral digits d) : IsSigned digits d
  | plus {digits : List Char} {d : Nat} (hdigits : IsNumeral digits d) : IsSigned ('+' :: digits) d

/-- What can stand behind a number, and the power of two by which it multiplies that number:
    nothing, or a letter, perhaps after blanks. -/
inductive IsScale : List Char → Nat → Prop where
  | one : IsScale [] 0
  | kilo {gap : List Char} {c : Char} (hgap : AllBlank gap) (hletter : c = 'k' ∨ c = 'K') :
      IsScale (gap ++ [c]) 10
  | mega {gap : List Char} {c : Char} (hgap : AllBlank gap) (hletter : c = 'm' ∨ c = 'M') :
      IsScale (gap ++ [c]) 20
  | giga {gap : List Char} {c : Char} (hgap : AllBlank gap) (hletter : c = 'g' ∨ c = 'G') :
      IsScale (gap ++ [c]) 30

/-- The text is a number and a scale between blanks, and `n` is their product, which is positive and
    fits 64 bits. -/
def IsSize (cs : List Char) (n : Nat) : Prop :=
  ∃ front number scale back d shift, AllBlank front ∧ IsSigned number d ∧ IsScale scale shift ∧
    AllBlank back ∧ cs = front ++ (number ++ scale) ++ back ∧ n = d * 2 ^ shift ∧
    0 < n ∧ n < 2 ^ 64

/-! ## 2. Numbers -/

theorem isBlank_of_isDigit (h : c.isDigit = true) : isBlank c = false := by
  have hlow : 48 ≤ c.toNat := (Char.isDigit_iff_toNat.1 h).1
  have hhigh : c.toNat ≤ 57 := (Char.isDigit_iff_toNat.1 h).2
  simp only [isBlank, blankRanges, List.any_cons, List.any_nil, Bool.or_eq_false_iff,
    Bool.and_eq_false_iff, decide_eq_false_iff_not, and_true]
  omega

theorem sizeShift?_of_isDigit (h : c.isDigit = true) : sizeShift? c = none := by
  have hne : ∀ letter : Char, letter.isDigit = false → c ≠ letter := by
    rintro letter hletter rfl
    rw [h] at hletter
    cases hletter
  simp [sizeShift?, hne]

/-- **The digits count from the left as they do from the right.** -/
theorem decimalValue_eq (digits : List Char) :
    decimalValue digits = Nat.ofDigits 10 (digits.reverse.map digitValue) := by
  induction digits using List.reverseRecOn with
  | nil => rfl
  | append_singleton digits c ih =>
    have hstep : decimalValue (digits ++ [c]) = 10 * decimalValue digits + digitValue c := by
      simp [decimalValue, digitValue]
    rw [hstep, ih, List.reverse_append, List.reverse_singleton, List.singleton_append,
      List.map_cons, Nat.ofDigits_cons, Nat.add_comm]

theorem isNumeral_iff :
    IsNumeral digits d ↔ digits ≠ [] ∧ digits.all Char.isDigit = true ∧
      decimalValue digits = d := by
  rw [decimalValue_eq, List.all_eq_true]
  exact ⟨fun h => ⟨h.ne_nil, h.isDigit, h.value⟩, fun ⟨hne, hdigit, hvalue⟩ =>
    ⟨hne, hdigit, hvalue⟩⟩

/-- The number that digits without a sign spell, if it fits 64 bits. -/
def numeral? (digits : List Char) : Option Nat :=
  if digits = [] ∨ !digits.all Char.isDigit then none
  else if decimalValue digits < addressSpace then some (decimalValue digits) else none

theorem numeral?_eq_some : numeral? digits = some d ↔ IsNumeral digits d ∧ d < addressSpace := by
  rw [isNumeral_iff, numeral?]
  grind

theorem parseDigits?_plus (digits : List Char) :
    parseDigits? ('+' :: digits) = numeral? digits := rfl

theorem parseDigits?_bare (h : ∀ digits, cs ≠ '+' :: digits) : parseDigits? cs = numeral? cs := by
  unfold parseDigits? numeral?
  grind

/-- **What is read as a number is a numeral, perhaps behind a plus sign, of a number that fits 64
    bits.** -/
theorem parseDigits?_eq_some : parseDigits? cs = some d ↔ IsSigned cs d ∧ d < addressSpace := by
  by_cases hplus : ∃ digits, cs = '+' :: digits
  · obtain ⟨digits, rfl⟩ := hplus
    rw [parseDigits?_plus, numeral?_eq_some]
    constructor
    · exact fun ⟨hdigits, hlt⟩ => ⟨.plus hdigits, hlt⟩
    · rintro ⟨hdigits | hdigits, hlt⟩
      · exact absurd (hdigits.isDigit '+' List.mem_cons_self) (by decide)
      · exact ⟨hdigits, hlt⟩
  · rw [not_exists] at hplus
    rw [parseDigits?_bare hplus, numeral?_eq_some]
    constructor
    · exact fun ⟨hdigits, hlt⟩ => ⟨.bare hdigits, hlt⟩
    · rintro ⟨hdigits | hdigits, hlt⟩
      · exact ⟨hdigits, hlt⟩
      · exact absurd rfl (hplus _)

theorem IsNumeral.exists_last (h : IsNumeral digits d) :
    ∃ front last, digits = front ++ [last] ∧ last.isDigit = true := by
  obtain rfl | ⟨front, last, rfl⟩ := digits.eq_nil_or_concat'
  · exact absurd rfl h.ne_nil
  · exact ⟨front, last, rfl, h.isDigit last List.mem_concat_self⟩

/-- A number ends with a digit. -/
theorem IsSigned.exists_last (h : IsSigned number d) :
    ∃ front last, number = front ++ [last] ∧ last.isDigit = true := by
  cases h with
  | bare hdigits => exact hdigits.exists_last
  | plus hdigits =>
    obtain ⟨front, last, rfl, hdigit⟩ := hdigits.exists_last
    exact ⟨'+' :: front, last, rfl, hdigit⟩

/-- A number has no blank at either end. -/
theorem IsSigned.bareEnds (h : IsSigned number d) : BareEnds number where
  start := by
    intro c hmem
    cases h with
    | bare hdigits => exact isBlank_of_isDigit (hdigits.isDigit c (List.mem_of_mem_head? hmem))
    | plus =>
      cases hmem
      rfl
  finish := by
    obtain ⟨front, last, rfl, hdigit⟩ := h.exists_last
    intro c hmem
    rw [List.reverse_append, List.reverse_singleton] at hmem
    cases hmem
    exact isBlank_of_isDigit hdigit

/-! ## 3. Scales -/

theorem sizeShift?_eq_some : sizeShift? c = some shift ↔
    (c = 'k' ∨ c = 'K') ∧ shift = 10 ∨ (c = 'm' ∨ c = 'M') ∧ shift = 20 ∨
      (c = 'g' ∨ c = 'G') ∧ shift = 30 := by
  unfold sizeShift?
  grind

/-- **A scale is nothing, or a letter that stands for a power of two, perhaps after blanks.** -/
theorem isScale_iff : IsScale scale shift ↔ scale = [] ∧ shift = 0 ∨
    ∃ gap c, AllBlank gap ∧ sizeShift? c = some shift ∧ scale = gap ++ [c] := by
  constructor
  · rintro (_ | ⟨hgap, hletter⟩ | ⟨hgap, hletter⟩ | ⟨hgap, hletter⟩)
    · exact .inl ⟨rfl, rfl⟩
    all_goals exact .inr ⟨_, _, hgap, sizeShift?_eq_some.2 (by simp [hletter]), rfl⟩
  · rintro (⟨rfl, rfl⟩ | ⟨gap, c, hgap, hletter, rfl⟩)
    · exact .one
    · obtain ⟨hk, rfl⟩ | ⟨hm, rfl⟩ | ⟨hg, rfl⟩ := sizeShift?_eq_some.1 hletter
      · exact .kilo hgap hk
      · exact .mega hgap hm
      · exact .giga hgap hg

theorem isBlank_of_sizeShift? (h : sizeShift? c = some shift) : isBlank c = false := by
  obtain ⟨rfl | rfl, -⟩ | ⟨rfl | rfl, -⟩ | ⟨rfl | rfl, -⟩ := sizeShift?_eq_some.1 h <;> rfl

/-- A number with a scale behind it has no blank at either end. -/
theorem IsScale.bareEnds (hscale : IsScale scale shift) (hnumber : IsSigned number d) :
    BareEnds (number ++ scale) := by
  obtain ⟨rfl, -⟩ | ⟨gap, c, -, hletter, rfl⟩ := isScale_iff.1 hscale
  · rw [List.append_nil]
    exact hnumber.bareEnds
  · refine ⟨fun first hmem => hnumber.bareEnds.start first ?_, fun last hmem => ?_⟩
    · obtain ⟨front, last, rfl, -⟩ := hnumber.exists_last
      simpa [List.head?_append, Option.or_assoc] using hmem
    · rw [← List.append_assoc, List.reverse_concat] at hmem
      cases hmem
      exact isBlank_of_sizeShift? hletter

theorem splitSize_letter (h : sizeShift? last = some shift) :
    splitSize (part ++ [last]) = (part, shift) := by
  simp [splitSize, h]

theorem splitSize_other (h : sizeShift? last = none) :
    splitSize (part ++ [last]) = (part ++ [last], 0) := by
  simp [splitSize, h]

theorem splitSize_cases (cs : List Char) : splitSize cs = (cs, 0) ∨
    ∃ part last shift, cs = part ++ [last] ∧ sizeShift? last = some shift ∧
      splitSize cs = (part, shift) := by
  obtain rfl | ⟨part, last, rfl⟩ := cs.eq_nil_or_concat'
  · exact .inl rfl
  · cases hletter : sizeShift? last with
    | none => exact .inl (splitSize_other hletter)
    | some shift => exact .inr ⟨part, last, shift, rfl, hletter, splitSize_letter hletter⟩

/-- **The digits that a size is split into are those that a scale stands behind.** -/
theorem trimBlanks_splitSize_iff (hcore : BareEnds core) (hnumber : IsSigned number d) :
    trimBlanks (splitSize core).1 = number ∧ (splitSize core).2 = shift ↔
      ∃ scale, IsScale scale shift ∧ core = number ++ scale := by
  constructor
  · rintro ⟨hpart, hshift⟩
    obtain hsplit | ⟨part, last, power, rfl, hletter, hsplit⟩ := splitSize_cases core
    · rw [hsplit] at hpart hshift
      cases hshift
      exact ⟨[], .one, by rw [List.append_nil, ← hpart, hcore.trimBlanks_eq]⟩
    · rw [hsplit] at hpart hshift
      cases hshift
      obtain ⟨gap, hgap, hparts⟩ := eq_trimBlanks_append hcore.start.of_append
      exact ⟨gap ++ [last], isScale_iff.2 (.inr ⟨gap, last, hgap, hletter, rfl⟩),
        by rw [← List.append_assoc, ← hpart, ← hparts]⟩
  · rintro ⟨scale, hscale, rfl⟩
    obtain ⟨rfl, rfl⟩ | ⟨gap, c, hgap, hletter, rfl⟩ := isScale_iff.1 hscale
    · obtain ⟨front, last, hparts, hdigit⟩ := hnumber.exists_last
      rw [List.append_nil, hparts, splitSize_other (sizeShift?_of_isDigit hdigit), ← hparts]
      exact ⟨hnumber.bareEnds.trimBlanks_eq, rfl⟩
    · rw [← List.append_assoc, splitSize_letter hletter]
      exact ⟨trimBlanks_surrounded allBlank_nil hgap hnumber.bareEnds, rfl⟩

/-! ## 4. Places that count bytes -/

/-- The characters of a text, each with the number of the byte at which it begins. -/
def places (start : Nat) : List Char → List (Nat × Char)
  | [] => []
  | c :: cs => (start, c) :: places (start + c.utf8Size) cs

/-- The text before a byte; there is none before a byte inside a character or behind the end. -/
def before? (text : String) (place : Nat) : Option String :=
  if h : (⟨place⟩ : String.Pos.Raw).IsValid text then some (text.sliceTo (text.pos ⟨place⟩ h)).copy
    else none

/-- One, moved to the left in a word of 64 bits; it cannot be moved by as many. -/
def oneMovedBy? (shift : Nat) : Option Nat := if shift < 64 then some (2 ^ shift) else none

/-- The product of the number that digits spell and a power of two, if it is positive and fits 64
    bits. -/
def productOf? (digits : String) (shift : Nat) : Option (Option Nat) :=
  match parseDigits? (trimBlanks digits.toList) with
  | none => some none
  | some size => do
    let factor ← oneMovedBy? shift
    return if 0 < size * factor ∧ size * factor < addressSpace then some (size * factor) else none

/-- The size that a text is, found by the byte at which its last character begins. The outer option
    is empty if there is no text before that byte, or no word for the power of two that the letter
    stands for: reading stops there. -/
def readByPlaces (value : String) : Option (Option Nat) :=
  let text := String.ofList (trimBlanks value.toList)
  match (places 0 text.toList).getLast? with
  | none => some none
  | some (place, last) =>
    match sizeShift? last with
    | none => productOf? text 0
    | some shift => do productOf? (← before? text place) shift

theorem getLast?_places (start : Nat) (cs : List Char) (last : Char) :
    (places start (cs ++ [last])).getLast? =
      some (start + (String.ofList cs).utf8ByteSize, last) := by
  induction cs generalizing start with
  | nil => simp [places]
  | cons c cs ih =>
    rw [List.cons_append, places, List.getLast?_cons, ih, Option.getD_some, String.ofList_cons,
      String.utf8ByteSize_append, String.utf8ByteSize_singleton, Nat.add_assoc]

/-- **Where one text ends and another follows it, there is a text before that place**, the first
    one. -/
theorem before?_append (text rest : String) :
    before? (text ++ rest) text.utf8ByteSize = some text := by
  have hvalid : (⟨text.utf8ByteSize⟩ : String.Pos.Raw).IsValid (text ++ rest) :=
    String.Pos.Raw.isValid_iff_exists_append.2 ⟨text, rest, rfl, rfl⟩
  rw [before?, dif_pos hvalid]
  exact congrArg some String.Pos.splits_append_rawEndPos.copy_sliceTo_eq

/-- Once a text is split, its size is the product. -/
theorem productOf?_of_splitSize (hsplit : splitSize (trimBlanks value.toList) = (part, shift))
    (hshift : shift < 64) :
    productOf? (String.ofList part) shift = some (parseSize? value) := by
  simp only [productOf?, parseSize?, hsplit, String.toList_ofList]
  cases parseDigits? (trimBlanks part) with
  | none => rfl
  | some size => simp [oneMovedBy?, hshift, Nat.shiftLeft_eq]

/-- **There is a text before the last character and a power of two for each letter, and so the size
    of a text is found by places.** -/
theorem readByPlaces_eq (value : String) : readByPlaces value = some (parseSize? value) := by
  simp only [readByPlaces, String.toList_ofList]
  obtain hnil | ⟨part, last, hparts⟩ := (trimBlanks value.toList).eq_nil_or_concat'
  · simp only [parseSize?, hnil]
    rfl
  · rw [hparts, getLast?_places, Nat.zero_add]
    cases hletter : sizeShift? last with
    | none =>
      simp only [hletter]
      exact productOf?_of_splitSize (by rw [hparts, splitSize_other hletter]) (by decide)
    | some shift =>
      have hshift : shift < 64 := by
        have := sizeShift?_eq_some.1 hletter
        omega
      simp only [hletter]
      rw [String.ofList_append, before?_append]
      exact productOf?_of_splitSize (by rw [hparts, splitSize_letter hletter]) hshift

/-! ## 5. Sizes -/

theorem parseSize?_eq_some : parseSize? value = some n ↔
    ∃ d, parseDigits? (trimBlanks (splitSize (trimBlanks value.toList)).1) = some d ∧
      n = d * 2 ^ (splitSize (trimBlanks value.toList)).2 ∧ 0 < n ∧ n < addressSpace := by
  simp only [parseSize?, Option.bind_eq_bind, Option.bind_eq_some_iff, Nat.shiftLeft_eq]
  refine exists_congr fun d => and_congr_right fun _ => ?_
  have hpositive : 0 < d * 2 ^ (splitSize (trimBlanks value.toList)).2 ↔ 0 < d :=
    Nat.mul_pos_iff_of_pos_right (Nat.two_pow_pos _)
  split
  · rename_i hfits
    constructor
    · rintro ⟨⟩
      exact ⟨rfl, hpositive.2 hfits.1, hfits.2⟩
    · rintro ⟨rfl, -⟩
      rfl
  · rename_i hfits
    refine iff_of_false nofun ?_
    rintro ⟨rfl, hpos, hlt⟩
    exact hfits ⟨hpositive.1 hpos, hlt⟩

/-- **A text is read as a size exactly if it is written as one**: blanks, perhaps a plus sign,
    digits, perhaps blanks and a letter, and blanks again, where the number that the digits spell,
    times the power of two that the letter stands for, is positive and fits 64 bits. Every other
    text is read as none, and reading stops at no text. -/
theorem size_read_iff_written (value : String) :
    (∀ n, parseSize? value = some n ↔ IsSize value.toList n) ∧
    (parseSize? value = none ↔ ∀ n, ¬IsSize value.toList n) ∧
    readByPlaces value = some (parseSize? value) := by
  have hsome : ∀ n, parseSize? value = some n ↔ IsSize value.toList n := by
    intro n
    rw [parseSize?_eq_some]
    constructor
    · rintro ⟨d, hread, hn, hpos, hlt⟩
      obtain ⟨hnumber, -⟩ := parseDigits?_eq_some.1 hread
      obtain ⟨hcore, front, back, hfront, hback, hparts⟩ :=
        trimBlanks_eq_iff.1 (Eq.refl (trimBlanks value.toList))
      obtain ⟨scale, hscale, hsplit⟩ := (trimBlanks_splitSize_iff hcore hnumber).1 ⟨rfl, rfl⟩
      rw [hsplit] at hparts
      exact ⟨front, _, scale, back, d, _, hfront, hnumber, hscale, hback, hparts, hn, hpos, hlt⟩
    · rintro ⟨front, number, scale, back, d, shift, hfront, hnumber, hscale, hback, hparts, hn,
        hpos, hlt⟩
      have hcore := hscale.bareEnds hnumber
      obtain ⟨hdigits, hshift⟩ := (trimBlanks_splitSize_iff hcore hnumber).2 ⟨scale, hscale, rfl⟩
      have htrim := trimBlanks_eq_iff.2 ⟨hcore, front, back, hfront, hback, hparts⟩
      have hd : d < addressSpace :=
        (Nat.le_mul_of_pos_right d (Nat.two_pow_pos shift)).trans_lt (hn ▸ hlt)
      refine ⟨d, ?_, ?_, hpos, hlt⟩
      · rw [htrim, hdigits]
        exact parseDigits?_eq_some.2 ⟨hnumber, hd⟩
      · rw [htrim, hshift, hn]
  refine ⟨hsome, ?_, readByPlaces_eq value⟩
  simp only [Option.eq_none_iff_forall_ne_some, ne_eq, hsome]

/-- A blank of three bytes in front, a sign, and a blank before the letter. -/
example : parseSize? "\u3000+16 G" = some 17179869184 := by decide

/-- A letter of three bytes, which stands for nothing. -/
example : parseSize? "5\uff2b" = none := by decide

end CodeVault.Config
