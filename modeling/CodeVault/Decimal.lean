import CodeVault.Timestamp

/-!
# Ratios with six decimals

A ratio of two counts is rounded twice: to the nearest number of 53 binary digits, and that number
to six decimals. A tie goes to the even neighbour both times (`roundHalfEven`).
-/

namespace CodeVault

/-- The whole number nearest to `n / d`; of two that are equally near, the even one. -/
def roundHalfEven (n d : Nat) : Nat :=
  let whole := n / d
  let rest := n % d
  if 2 * rest < d then whole
  else if d < 2 * rest then whole + 1
  else whole + whole % 2

/-- Rounding takes the whole part when the rest is no more than a half, or one more when it is no
    less. -/
theorem roundHalfEven_cases (n d : Nat) :
    roundHalfEven n d = n / d ∧ 2 * (n % d) ≤ d ∨
      roundHalfEven n d = n / d + 1 ∧ d ≤ 2 * (n % d) := by
  have hpar := Nat.mod_two_eq_zero_or_one (n / d)
  simp only [roundHalfEven]
  split
  · exact .inl ⟨rfl, by omega⟩
  · split
    · exact .inr ⟨rfl, by omega⟩
    · rcases hpar with h | h <;> rw [h]
      · exact .inl ⟨rfl, by omega⟩
      · exact .inr ⟨rfl, by omega⟩

/-- **The nearest whole number is no more than a half away.** -/
theorem roundHalfEven_near {n d : Nat} (h : 0 < d) :
    2 * n ≤ (2 * roundHalfEven n d + 1) * d ∧ 2 * roundHalfEven n d * d ≤ 2 * n + d := by
  have hsplit := Nat.div_add_mod' n d
  have hlt := Nat.mod_lt n h
  rcases roundHalfEven_cases n d with ⟨heq, hle⟩ | ⟨heq, hle⟩ <;>
    simp only [heq, Nat.add_mul, Nat.mul_add, Nat.mul_assoc, Nat.one_mul] <;> omega

/-- The number of 53 binary digits nearest to `n / d`, for `0 < n ≤ d`, as a numerator over a power
    of two, with the exponent of that power. -/
def nearestBinary (n d : Nat) : Nat × Nat :=
  let exponent := 52 + Nat.log2 (d / n)
  let exponent := if n <<< exponent / d < 1 <<< 52 then exponent + 1 else exponent
  (roundHalfEven (n <<< exponent) d, exponent)

/-- The share `n / d`, for `n ≤ d`, with six decimals; nothing of nothing is zero. -/
def shareText (n d : Nat) : String :=
  let millionths :=
    if n = 0 ∨ d = 0 then 0
    else
      let (numerator, exponent) := nearestBinary n d
      roundHalfEven (numerator * 1000000) (1 <<< exponent)
  Timestamp.padded 1 (millionths / 1000000) ++ "." ++ Timestamp.padded 6 (millionths % 1000000)

end CodeVault
