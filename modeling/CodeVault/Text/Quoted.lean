import CodeVault.Text.Printable

/-!
# Quoted texts

A text within a message stands in quotes. A quote or a backslash of the text gets a backslash before
it, four controls have a letter or digit of their own, and what is not printable is shown by its
number.
-/

namespace CodeVault

/-- A character that is shown by its number, in hexadecimal digits. -/
def numberedChar (c : Char) : List Char :=
  ['\\', 'u', '\x7b'] ++ Nat.toDigits 16 c.toNat ++ ['\x7d']

/-- A character within quotes. -/
def quotedChar : Char → List Char
  | '"' => ['\\', '"']
  | '\\' => ['\\', '\\']
  | '\n' => ['\\', 'n']
  | '\r' => ['\\', 'r']
  | '\t' => ['\\', 't']
  | '\x00' => ['\\', '0']
  | c => if isPrintable c then [c] else numberedChar c

/-- **A printable character stands as it is**, but for the quote and the backslash. -/
theorem quotedChar_of_isPrintable {c : Char} (printable : isPrintable c) (quote : c ≠ '"')
    (backslash : c ≠ '\\') : quotedChar c = [c] := by
  unfold quotedChar
  split
  · exact absurd rfl quote
  · exact absurd rfl backslash
  · exact absurd printable (by decide +kernel)
  · exact absurd printable (by decide +kernel)
  · exact absurd printable (by decide +kernel)
  · exact absurd printable (by decide +kernel)
  · simp [printable]

/-- A text in quotes. -/
def quoted (text : String) : String :=
  String.ofList ('"' :: text.toList.flatMap quotedChar ++ ['"'])

end CodeVault
