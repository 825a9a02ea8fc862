import LoxFrontEnd.Binary64.Rounding
import Mathlib.Algebra.Order.Field.Basic
import Mathlib.Algebra.Order.Ring.Rat
import Mathlib.Tactic.Linarith
import Mathlib.Tactic.Positivity

/-!
# The grid of the magnitudes

The values of the ranks as rationals, in increasing order. A quotient lies between two ranks that
follow each other, and rounding picks one of the two. What rounding does is said once: the rank is at
most `k` exactly when the quotient does not pass the middle between `k` and the rank above it.
-/

namespace LoxFrontEnd

/-- A quotient that rounds down does not pass the middle between its floor and the next whole number. -/
theorem roundHalfEven_le_div_iff {n d : Nat} :
    roundHalfEven n d ≤ n / d ↔
      2 * n < (2 * (n / d) + 1) * d ∨ 2 * n = (2 * (n / d) + 1) * d ∧ n / d % 2 = 0 := by
  have hn : d * (n / d) + n % d = n := Nat.div_add_mod n d
  have hmiddle : (2 * (n / d) + 1) * d = 2 * (d * (n / d)) + d := by
    rw [Nat.add_mul, Nat.mul_assoc, Nat.mul_comm (n / d), Nat.one_mul]
  rw [hmiddle]
  simp only [roundHalfEven]
  split <;> omega

namespace Magnitude

theorem binade_pos : 0 < binade := by decide

theorem binade_mod_two : binade % 2 = 0 := by decide

/-! ### Smallest units -/

def doublingsAt (rank : Nat) : Nat := rank / binade - 1

def significandAt (rank : Nat) : Nat := rank - doublingsAt rank * binade

/-- The number of smallest units at a rank; past the ranks of the format it goes on with ever larger
exponents. -/
def unitsAt (rank : Nat) : Nat := significandAt rank * 2 ^ doublingsAt rank

/-- A rank is its exponent and its significand, which has its first bit set unless the exponent is the
least one. -/
theorem place (rank : Nat) : rank = doublingsAt rank * binade + significandAt rank ∧
    significandAt rank < 2 * binade ∧ (doublingsAt rank = 0 ∨ binade ≤ significandAt rank) := by
  have hrank := Nat.div_add_mod' rank binade
  have hmod := Nat.mod_lt rank binade_pos
  rcases Nat.eq_zero_or_pos (rank / binade) with h | h
  · have hd : doublingsAt rank = 0 := by rw [doublingsAt, h]
    have hs : significandAt rank = rank := by rw [significandAt, hd, Nat.zero_mul, Nat.sub_zero]
    rw [h] at hrank
    rw [hd, hs]
    exact ⟨by omega, by omega, .inl rfl⟩
  · obtain ⟨doublings, hd⟩ := Nat.exists_eq_succ_of_ne_zero (Nat.pos_iff_ne_zero.1 h)
    rw [hd, Nat.succ_mul] at hrank
    have hdoublings : doublingsAt rank = doublings := by
      rw [doublingsAt, hd, Nat.succ_sub_one]
    simp only [significandAt, hdoublings]
    omega

/-- The significand may also be the first one of the next exponent. -/
theorem unitsAt_add {doublings significand : Nat} (hle : significand ≤ 2 * binade)
    (hfull : doublings = 0 ∨ binade ≤ significand) :
    unitsAt (doublings * binade + significand) = significand * 2 ^ doublings := by
  have hquotient : (doublings * binade + significand) / binade = significand / binade + doublings := by
    rw [Nat.add_comm, Nat.add_mul_div_right _ _ binade_pos]
  rcases hle.lt_or_eq with h | rfl
  · have hless : significand / binade < 2 := Nat.div_lt_of_lt_mul (by omega)
    have hone : binade ≤ significand → 0 < significand / binade := fun hs =>
      Nat.div_pos hs binade_pos
    have hd : doublingsAt (doublings * binade + significand) = doublings := by
      rw [doublingsAt]
      omega
    rw [unitsAt, significandAt, hd, Nat.add_sub_cancel_left]
  · have hd : doublingsAt (doublings * binade + 2 * binade) = doublings + 1 := by
      rw [doublingsAt, hquotient, Nat.mul_div_cancel 2 binade_pos]
      omega
    have hs : significandAt (doublings * binade + 2 * binade) = binade := by
      rw [significandAt, hd, Nat.add_mul]
      omega
    rw [unitsAt, hd, hs, Nat.pow_succ, Nat.mul_comm 2, Nat.mul_assoc, Nat.mul_comm 2]

theorem unitsAt_strictMono : StrictMono unitsAt := by
  refine strictMono_nat_of_lt_succ fun rank => ?_
  obtain ⟨hrank, hlt, hfull⟩ := place rank
  have hnext : unitsAt (rank + 1) = (significandAt rank + 1) * 2 ^ doublingsAt rank := by
    conv_lhs => rw [hrank, Nat.add_assoc]
    exact unitsAt_add hlt (by omega)
  rw [hnext, unitsAt]
  exact Nat.mul_lt_mul_of_pos_right (Nat.lt_succ_self _) (Nat.two_pow_pos _)

/-! ### Values -/

theorem unitsPerOne_eq : unitsPerOne = 2 ^ 1074 := by decide +kernel

theorem cast_unitsPerOne : (unitsPerOne : Rat) = 2 ^ 1074 := by
  rw [unitsPerOne_eq, Nat.cast_pow, Nat.cast_ofNat]

theorem cast_unitsPerOne_pos : (0 : Rat) < unitsPerOne := by
  rw [cast_unitsPerOne]
  positivity

def grid (rank : Nat) : Rat := unitsAt rank / unitsPerOne

theorem grid_strictMono : StrictMono grid := fun r s h => by
  have hunits : (unitsAt r : Rat) < unitsAt s := by exact_mod_cast unitsAt_strictMono h
  exact div_lt_div_of_pos_right hunits cast_unitsPerOne_pos

/-- Where a quotient changes over from a rank to the next one. -/
def middle (rank : Nat) : Rat := (grid rank + grid (rank + 1)) / 2

/-! ### Rounding -/

/-- The exponent on whose grid a quotient is rounded, counted from the least one. -/
def quotientDoublings (n d : Nat) : Nat := (n * unitsPerOne / d).log2 - 52

/-- The last rank that does not lie above a quotient. -/
def floorRank (n d : Nat) : Nat :=
  quotientDoublings n d * binade + n * unitsPerOne / (d * 2 ^ quotientDoublings n d)

/-- The rank that a quotient is rounded to when the exponent may be as large as needed. -/
def nearestRank (n d : Nat) : Nat :=
  quotientDoublings n d * binade +
    roundHalfEven (n * unitsPerOne) (d * 2 ^ quotientDoublings n d)

theorem nearest_eq_ofRank (n d : Nat) : nearest n d = ofRank (nearestRank n d) := rfl

theorem floor_significand (n d : Nat) :
    n * unitsPerOne / (d * 2 ^ quotientDoublings n d) < 2 * binade ∧
      (quotientDoublings n d = 0 ∨ binade ≤ n * unitsPerOne / (d * 2 ^ quotientDoublings n d)) := by
  have hbinade : binade = 2 ^ 52 := rfl
  rw [← Nat.div_div_eq_div_mul, quotientDoublings]
  generalize n * unitsPerOne / d = count
  rcases Nat.lt_or_ge count.log2 53 with h | h
  · have hzero : count.log2 - 52 = 0 := by omega
    have hcount : count < 2 ^ 53 := by
      rcases Nat.eq_zero_or_pos count with rfl | hpos
      · exact Nat.two_pow_pos 53
      · exact (Nat.log2_lt hpos.ne').1 h
    rw [hzero, Nat.pow_zero, Nat.div_one]
    exact ⟨by omega, .inl rfl⟩
  · have hne : count ≠ 0 := by
      rintro rfl
      rw [Nat.log2_zero] at h
      omega
    obtain ⟨doublings, hd⟩ : ∃ doublings, count.log2 = 52 + doublings :=
      Nat.exists_eq_add_of_le (by omega)
    have hlow : 2 ^ 52 * 2 ^ doublings ≤ count := by
      rw [← Nat.pow_add, ← hd]
      exact Nat.log2_self_le hne
    have hhigh : count < 2 ^ doublings * 2 ^ 53 := by
      rw [← Nat.pow_add, ← Nat.log2_lt hne]
      omega
    rw [hd, Nat.add_sub_cancel_left]
    refine ⟨?_, .inr ?_⟩
    · have := Nat.div_lt_of_lt_mul hhigh
      omega
    · rw [hbinade]
      exact (Nat.le_div_iff_mul_le (Nat.two_pow_pos _)).2 hlow

theorem nearestRank_bounds (n d : Nat) :
    floorRank n d ≤ nearestRank n d ∧ nearestRank n d ≤ floorRank n d + 1 := by
  obtain ⟨hlow, hhigh⟩ := roundHalfEven_bounds (n * unitsPerOne) (d * 2 ^ quotientDoublings n d)
  simp only [floorRank, nearestRank]
  omega

theorem unitsAt_floorRank (n d : Nat) : unitsAt (floorRank n d) =
    n * unitsPerOne / (d * 2 ^ quotientDoublings n d) * 2 ^ quotientDoublings n d :=
  unitsAt_add (floor_significand n d).1.le (floor_significand n d).2

theorem unitsAt_floorRank_succ (n d : Nat) : unitsAt (floorRank n d + 1) =
    (n * unitsPerOne / (d * 2 ^ quotientDoublings n d) + 1) * 2 ^ quotientDoublings n d := by
  obtain ⟨hlt, hfull⟩ := floor_significand n d
  rw [floorRank, Nat.add_assoc]
  exact unitsAt_add hlt (by omega)

theorem grid_floorRank_bounds (n : Nat) {d : Nat} (hd : 0 < d) :
    grid (floorRank n d) ≤ n / d ∧ (n / d : Rat) < grid (floorRank n d + 1) := by
  have hdcast : (0 : Rat) < d := by exact_mod_cast hd
  have hfloor : unitsAt (floorRank n d) * d ≤ n * unitsPerOne := by
    rw [unitsAt_floorRank, Nat.mul_assoc, Nat.mul_comm (2 ^ _) d]
    exact Nat.div_mul_le_self _ _
  have hnext : n * unitsPerOne < unitsAt (floorRank n d + 1) * d := by
    rw [unitsAt_floorRank_succ, Nat.mul_assoc, Nat.mul_comm (2 ^ _) d]
    exact Nat.lt_mul_of_div_lt (Nat.lt_succ_self _) (Nat.mul_pos hd (Nat.two_pow_pos _))
  constructor
  · exact (div_le_div_iff₀ cast_unitsPerOne_pos hdcast).2 (by exact_mod_cast hfloor)
  · exact (div_lt_div_iff₀ hdcast cast_unitsPerOne_pos).2 (by exact_mod_cast hnext)

theorem nearestRank_le_floorRank_iff (n : Nat) {d : Nat} (hd : 0 < d) :
    nearestRank n d ≤ floorRank n d ↔ (n / d : Rat) < middle (floorRank n d) ∨
      (n / d : Rat) = middle (floorRank n d) ∧ floorRank n d % 2 = 0 := by
  have hdcast : (0 : Rat) < d := by exact_mod_cast hd
  have hsum : (unitsAt (floorRank n d) + unitsAt (floorRank n d + 1)) * d =
      (2 * (n * unitsPerOne / (d * 2 ^ quotientDoublings n d)) + 1) *
        (d * 2 ^ quotientDoublings n d) := by
    rw [unitsAt_floorRank, unitsAt_floorRank_succ, ← Nat.add_mul, Nat.mul_assoc,
      Nat.mul_comm (2 ^ _) d]
    congr 1
    omega
  have hmiddle : middle (floorRank n d) =
      (unitsAt (floorRank n d) + unitsAt (floorRank n d + 1) : Nat) / (2 * unitsPerOne) := by
    rw [middle, grid, grid, ← add_div, div_div, Nat.cast_add, mul_comm]
  have hparity : floorRank n d % 2 = n * unitsPerOne / (d * 2 ^ quotientDoublings n d) % 2 := by
    rw [floorRank, Nat.add_mod, Nat.mul_mod, binade_mod_two, Nat.mul_zero]
    omega
  have hpos : (0 : Rat) < 2 * unitsPerOne := mul_pos two_pos cast_unitsPerOne_pos
  have hlt : (n / d : Rat) < middle (floorRank n d) ↔ 2 * (n * unitsPerOne) <
      (unitsAt (floorRank n d) + unitsAt (floorRank n d + 1)) * d := by
    rw [hmiddle, div_lt_div_iff₀ hdcast hpos, mul_left_comm]
    exact_mod_cast Iff.rfl
  have heq : (n / d : Rat) = middle (floorRank n d) ↔ 2 * (n * unitsPerOne) =
      (unitsAt (floorRank n d) + unitsAt (floorRank n d + 1)) * d := by
    rw [hmiddle, div_eq_div_iff hdcast.ne' hpos.ne', mul_left_comm]
    exact_mod_cast Iff.rfl
  rw [hlt, heq, hsum, hparity, ← roundHalfEven_le_div_iff, nearestRank, floorRank]
  exact Nat.add_le_add_iff_left

/-- The rank at which a value changes over to rounding down: the middle above it is not passed, and on a
middle it is the even rank that is taken. -/
def ClosestRank (v : Rat) (rank : Nat) : Prop :=
  ∀ k, rank ≤ k ↔ v < middle k ∨ v = middle k ∧ k % 2 = 0

theorem closestRank_nearestRank (n : Nat) {d : Nat} (hd : 0 < d) :
    ClosestRank (n / d) (nearestRank n d) := by
  intro rank
  obtain ⟨hlow, hhigh⟩ := nearestRank_bounds n d
  obtain ⟨hfloor, hnext⟩ := grid_floorRank_bounds n hd
  -- the parity matters at the floor only; below and above it the middle is out of reach
  rcases Nat.lt_trichotomy rank (floorRank n d) with h | rfl | h
  · have hgrid : grid (rank + 1) ≤ grid (floorRank n d) := grid_strictMono.monotone h
    have hself : grid rank < grid (rank + 1) := grid_strictMono (Nat.lt_succ_self rank)
    have habove : middle rank < n / d := by
      rw [middle]
      linarith
    constructor
    · omega
    · rintro (hlt | ⟨heq, -⟩) <;> linarith
  · exact nearestRank_le_floorRank_iff n hd
  · have hgrid : grid (floorRank n d + 1) ≤ grid rank := grid_strictMono.monotone h
    have hself : grid rank < grid (rank + 1) := grid_strictMono (Nat.lt_succ_self rank)
    have hbelow : (n / d : Rat) < middle rank := by
      rw [middle]
      linarith
    exact ⟨fun _ => .inl hbelow, fun _ => by omega⟩

end Magnitude

end LoxFrontEnd
