import CodeVault.Address
import CodeVault.Text.Blank

/-!
# Sizes

A size is written as decimal digits, perhaps after a plus sign, and perhaps with one of the letters
`k`, `m` and `g` behind, for two to the power of 10, 20 or 30. White space around it, and before the
letter, does not count. A size is positive and fits 64 bits.
-/

namespace CodeVault.Config

/-- The number of decimal digits. -/
def decimalValue (digits : List Char) : Nat :=
  digits.foldl (fun n d => 10 * n + (d.toNat - '0'.toNat)) 0

/-- The number that digits spell, perhaps after a plus sign, if it fits 64 bits. -/
def parseDigits? (cs : List Char) : Option Nat :=
  let digits := match cs with
    | '+' :: rest => rest
    | _ => cs
  if digits = [] ∨ !digits.all Char.isDigit then none
  else if decimalValue digits < addressSpace then some (decimalValue digits)
  else none

/-- The power of two that a letter stands for. -/
def sizeShift? (c : Char) : Option Nat :=
  if c = 'k' ∨ c = 'K' then some 10
  else if c = 'm' ∨ c = 'M' then some 20
  else if c = 'g' ∨ c = 'G' then some 30
  else none

/-- The digits of a size and the power of two that its letter stands for. -/
def splitSize (cs : List Char) : List Char × Nat :=
  match cs.getLast? with
  | none => (cs, 0)
  | some last =>
    match sizeShift? last with
    | some shift => (cs.dropLast, shift)
    | none => (cs, 0)

/-- The number of bytes that a size stands for. -/
def parseSize? (value : String) : Option Nat := do
  let (digits, shift) := splitSize (trimBlanks value.toList)
  let size ← parseDigits? (trimBlanks digits)
  if 0 < size ∧ size <<< shift < addressSpace then return size <<< shift else none

end CodeVault.Config
