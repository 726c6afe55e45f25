import CodeVault.Bytes
import Mathlib.Algebra.Group.Nat.Defs

/-!
# Words and their digits

Writing a number as a word and reading it back are inverse to each other, up to the digits that the
word has no room for.
-/

namespace CodeVault

/-- **Reading the digits of a number gives the number, up to the digits that were dropped.** -/
theorem wordValue_wordBytes (width value : Nat) :
    wordValue (wordBytes width value) = value % 256 ^ width := by
  induction width generalizing value with
  | zero => simp [wordBytes, wordValue, Nat.mod_one]
  | succ w ih =>
    simp only [wordBytes, wordValue, ih]
    have h : (UInt8.ofNat value).toNat = value % 256 := by simp
    rw [h, Nat.pow_succ, Nat.mul_comm (256 ^ w) 256, Nat.mod_mul]

/-- **Every list of digits is the list of its number.** -/
theorem wordBytes_wordValue (digits : List UInt8) :
    wordBytes digits.length (wordValue digits) = digits := by
  induction digits with
  | nil => rfl
  | cons d rest ih =>
    have hd : d.toNat < 256 := d.toNat_lt
    have h1 : UInt8.ofNat (d.toNat + 256 * wordValue rest) = d := by
      apply UInt8.toNat_inj.1
      simp only [UInt8.toNat_ofNat']
      omega
    have h2 : (d.toNat + 256 * wordValue rest) / 256 = wordValue rest := by omega
    simp only [List.length_cons, wordValue, wordBytes, h1, h2, ih]

/-- A number of so many digits lies below that power of 256. -/
theorem wordValue_lt (digits : List UInt8) : wordValue digits < 256 ^ digits.length := by
  induction digits with
  | nil => simp [wordValue]
  | cons d rest ih =>
    have hd : d.toNat < 256 := d.toNat_lt
    simp only [wordValue, List.length_cons, Nat.pow_succ]
    omega

end CodeVault
