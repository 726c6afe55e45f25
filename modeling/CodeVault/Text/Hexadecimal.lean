/-!
# Hexadecimal numbers

Addresses are shown to base sixteen, in lower case, with `0x` before them and no leading zeros.
-/

namespace CodeVault

/-- The number `n` to base sixteen, as addresses are shown. -/
def hexadecimal (n : Nat) : String := "0x" ++ String.ofList (Nat.toDigits 16 n)

end CodeVault
