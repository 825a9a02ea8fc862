import LoxFrontEnd.Binary64.Basic

/-!
# Rounding a quotient

The magnitude nearest to an exact quotient, a tie going to the even significand. The quotient is
rounded once, on the grid of the exponent that its whole number of smallest units picks, and a
significand that rounds up past its exponent is the first rank of the next one, so no case is special.
-/

namespace LoxFrontEnd

/-- The whole number nearest to `n / d`; half way, the even one. -/
def roundHalfEven (n d : Nat) : Nat :=
  let q := n / d
  let r := n % d
  if 2 * r < d ∨ (2 * r = d ∧ q % 2 = 0) then q else q + 1

theorem roundHalfEven_bounds (n d : Nat) :
    n / d ≤ roundHalfEven n d ∧ roundHalfEven n d ≤ n / d + 1 := by
  simp only [roundHalfEven]
  split <;> omega

namespace Magnitude

/-- The magnitude nearest to `n / d`, for a positive `d`; past the largest finite one, infinity. -/
def nearest (n d : Nat) : Magnitude :=
  let scaled := n * unitsPerOne
  let doublings := (scaled / d).log2 - 52
  ofRank (doublings * binade + roundHalfEven scaled (d * Nat.pow 2 doublings))

end Magnitude

def Binary64.ofQuotient (n d : Nat) : Binary64 := .signed false (Magnitude.nearest n d)

end LoxFrontEnd
