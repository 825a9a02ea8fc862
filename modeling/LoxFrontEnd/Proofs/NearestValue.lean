import LoxFrontEnd.Proofs.Grid
import Mathlib.Tactic.FieldSimp
import Mathlib.Tactic.Ring

/-!
# Rounding to the nearest value

What it means that a magnitude is the rounding of a rational, said of all finite values of the format and
not of a way to find it: no value of the format is nearer, of two that are equally near it is the one with
the even significand, and infinity begins half a step past the largest value. Every quotient has exactly
one such magnitude.
-/

namespace LoxFrontEnd

namespace Magnitude

/-! ### Distances -/

theorem abs_sub_lt_iff_middle {a b v : Rat} (h : a < b) : |v - b| < |v - a| ↔ (a + b) / 2 < v := by
  rcases abs_cases (v - a) with ⟨ha, _⟩ | ⟨ha, _⟩ <;>
    rcases abs_cases (v - b) with ⟨hb, _⟩ | ⟨hb, _⟩ <;>
      rw [ha, hb] <;> constructor <;> intro _ <;> linarith

theorem abs_sub_lt_iff_lt_middle {a b v : Rat} (h : a < b) :
    |v - a| < |v - b| ↔ v < (a + b) / 2 := by
  rcases abs_cases (v - a) with ⟨ha, _⟩ | ⟨ha, _⟩ <;>
    rcases abs_cases (v - b) with ⟨hb, _⟩ | ⟨hb, _⟩ <;>
      rw [ha, hb] <;> constructor <;> intro _ <;> linarith

theorem abs_sub_eq_of_middle {a b v : Rat} (h : a < b) (hv : v = (a + b) / 2) :
    |v - a| = |v - b| := by
  have ha : |v - a| = v - a := abs_of_nonneg (by linarith)
  have hb : |v - b| = -(v - b) := abs_of_nonpos (by linarith)
  rw [ha, hb]
  linarith

namespace ClosestRank

variable {v w : Rat} {rank other : Nat}

theorem mono (h : ClosestRank v rank) (h' : ClosestRank w other) (hvw : v ≤ w) : rank ≤ other := by
  refine (h other).2 ?_
  rcases (h' other).1 (Nat.le_refl other) with hlt | ⟨heq, heven⟩
  · exact .inl (hvw.trans_lt hlt)
  · rcases hvw.lt_or_eq with hlt | hvw
    · exact .inl (hlt.trans_eq heq)
    · exact .inr ⟨hvw.trans heq, heven⟩

/-- Another rank is farther away, or it is the odd one of two that are equally near. -/
theorem nearer (h : ClosestRank v rank) (hne : other ≠ rank) :
    |v - grid rank| < |v - grid other| ∨
      |v - grid rank| = |v - grid other| ∧ rank % 2 = 0 ∧ other % 2 = 1 := by
  rcases Nat.lt_or_gt_of_ne hne with hlt | hgt
  · obtain ⟨before, rfl⟩ : ∃ before, rank = before + 1 := Nat.exists_eq_succ_of_ne_zero (by omega)
    have hgrid : grid other < grid (before + 1) := grid_strictMono hlt
    have hle : grid other ≤ grid before := grid_strictMono.monotone (Nat.lt_succ_iff.1 hlt)
    have hpassed : ¬(v < middle before ∨ v = middle before ∧ before % 2 = 0) := fun hv =>
      absurd ((h before).2 hv) (Nat.not_succ_le_self before)
    simp only [not_or, not_and, not_lt, middle] at hpassed
    rcases lt_or_ge ((grid other + grid (before + 1)) / 2) v with hv | hv
    · exact .inl ((abs_sub_lt_iff_middle hgrid).2 hv)
    · -- the value is on the middle of the two, so they are neighbours and differ in parity
      have heq : grid other = grid before := by linarith
      have hother : other = before := grid_strictMono.injective heq
      have hmiddle : v = (grid other + grid (before + 1)) / 2 := by linarith
      have hodd := hpassed.2 (hmiddle.trans (by rw [heq]))
      exact .inr ⟨(abs_sub_eq_of_middle hgrid hmiddle).symm, by omega, by omega⟩
  · have hgrid : grid rank < grid other := grid_strictMono hgt
    have hle : grid (rank + 1) ≤ grid other := grid_strictMono.monotone hgt
    have hkept := (h rank).1 (Nat.le_refl rank)
    simp only [middle] at hkept
    rcases lt_or_ge v ((grid rank + grid other) / 2) with hv | hv
    · exact .inl ((abs_sub_lt_iff_lt_middle hgrid).2 hv)
    · rcases hkept with hkept | ⟨hkept, heven⟩
      · linarith
      · have heq : grid (rank + 1) = grid other := by linarith
        have hother : rank + 1 = other := grid_strictMono.injective heq
        exact .inr ⟨abs_sub_eq_of_middle hgrid (by linarith), heven, by omega⟩

end ClosestRank

/-! ### Finite values -/

/-- The significand and the exponent of a finite value: the significand has 53 bits, and its first bit is
set unless the exponent is the least one. -/
structure IsCanonical (significand exponent : Nat) : Prop where
  lt : significand < 2 ^ 53
  full : exponent = 0 ∨ 2 ^ 52 ≤ significand
  exponent_le : exponent ≤ 2045

def finiteValue (significand exponent : Nat) : Rat := significand * 2 ^ exponent / 2 ^ 1074

def value (m : Magnitude) : Rat := m.units / unitsPerOne

theorem value_eq_grid (m : Magnitude) : m.value = grid m.rank := rfl

theorem IsCanonical.exists_rank {significand exponent : Nat} (h : IsCanonical significand exponent) :
    ∃ rank < top, finiteValue significand exponent = grid rank := by
  have hbinade : binade = 2 ^ 52 := rfl
  have hlt := h.lt
  have hfull := h.full
  have hexponent := Nat.mul_le_mul_right binade h.exponent_le
  refine ⟨exponent * binade + significand, ?_, ?_⟩
  · rw [top]
    omega
  · rw [grid, unitsAt_add (by omega) (by omega), cast_unitsPerOne, Nat.cast_mul, Nat.cast_pow]
    rfl

theorem isInfinite_eq_false_iff {m : Magnitude} : m.isInfinite = false ↔ m.rank < top := by
  have hle := m.rank_le
  rw [isInfinite, beq_eq_false_iff_ne]
  omega

theorem isCanonical_of_isInfinite_eq_false {m : Magnitude} (h : m.isInfinite = false) :
    IsCanonical m.significand m.doublings ∧ m.value = finiteValue m.significand m.doublings := by
  have hbinade : binade = 2 ^ 52 := rfl
  have hbound : m.rank < 2047 * binade := isInfinite_eq_false_iff.1 h
  obtain ⟨hrank, hlt, hfull⟩ : m.rank = m.doublings * binade + m.significand ∧
      m.significand < 2 * binade ∧ (m.doublings = 0 ∨ binade ≤ m.significand) := place m.rank
  have hexponent : m.doublings ≤ 2045 := by
    by_contra hgt
    have := Nat.mul_le_mul_right binade (Nat.lt_of_not_le hgt)
    omega
  refine ⟨⟨by omega, by omega, hexponent⟩, ?_⟩
  rw [value, finiteValue, units, cast_unitsPerOne, Nat.cast_mul]
  congr 2
  exact Nat.cast_pow 2 _

theorem significand_mod_two (m : Magnitude) : m.significand % 2 = m.rank % 2 := by
  have hrank : m.rank = m.doublings * binade + m.significand := (place m.rank).1
  have heven : m.doublings * binade % 2 = 0 := by rw [Nat.mul_mod, binade_mod_two, Nat.mul_zero]
  omega

/-! ### The rounding of a rational -/

/-- A magnitude is what a value rounds to. -/
structure Rounds (m : Magnitude) (v : Rat) : Prop where
  canonical : m.isInfinite = false →
    IsCanonical m.significand m.doublings ∧ m.value = finiteValue m.significand m.doublings
  infinite_iff : m.isInfinite = true ↔ 2 ^ 1024 - 2 ^ 970 ≤ v
  nearest : m.isInfinite = false → ∀ significand exponent, IsCanonical significand exponent →
    |v - m.value| ≤ |v - finiteValue significand exponent|
  even : m.isInfinite = false → ∀ significand exponent, IsCanonical significand exponent →
    |v - m.value| = |v - finiteValue significand exponent| →
    finiteValue significand exponent = m.value ∨ m.significand % 2 = 0

/-- Half a step past the largest finite value, rounding goes on to the rank of infinity. -/
theorem middle_last : middle (top - 1) = 2 ^ 1024 - 2 ^ 970 := by
  have hpos := binade_pos
  have hlast : top - 1 = 2045 * binade + (2 * binade - 1) := by
    rw [top]
    omega
  have htop : top - 1 + 1 = 2045 * binade + 2 * binade := by
    rw [top]
    omega
  have hbinade : binade = 2 ^ 52 := rfl
  have hunits : (unitsAt (top - 1) + unitsAt (top - 1 + 1) : Rat) = (2 ^ 54 - 1) * 2 ^ 2045 := by
    rw [htop, hlast, unitsAt_add (by omega) (by omega), unitsAt_add (by omega) (by omega),
      ← Nat.cast_add, ← Nat.add_mul, hbinade, Nat.cast_mul, Nat.cast_pow]
    norm_num
  have hshift : (2 : Rat) ^ 2045 = 2 ^ 970 * 2 ^ 1074 * 2 := by
    rw [← pow_add, ← pow_succ]
  have hwhole : (2 : Rat) ^ 1024 = 2 ^ 54 * 2 ^ 970 := by
    rw [← pow_add]
  rw [middle, grid, grid, ← add_div, hunits, cast_unitsPerOne, hshift, hwhole]
  field_simp

theorem eq_ofRank_iff {m : Magnitude} {rank : Nat} : m = ofRank rank ↔ m.rank = min rank top := by
  cases m
  rw [ofRank, mk.injEq]

theorem isInfinite_ofRank_iff {rank : Nat} : (ofRank rank).isInfinite = true ↔ top ≤ rank := by
  rw [isInfinite, beq_iff_eq, ofRank]
  exact min_eq_right_iff

theorem exists_isCanonical {rank : Nat} (h : rank < top) : ∃ significand exponent,
    IsCanonical significand exponent ∧ finiteValue significand exponent = grid rank := by
  have hfinite : (ofRank rank).isInfinite = false := by
    rw [isInfinite_eq_false_iff, rank_ofRank h.le]
    exact h
  obtain ⟨hcanonical, hvalue⟩ := isCanonical_of_isInfinite_eq_false hfinite
  rw [value_eq_grid, rank_ofRank h.le] at hvalue
  exact ⟨_, _, hcanonical, hvalue.symm⟩

namespace ClosestRank

variable {v : Rat} {rank : Nat}

theorem top_le_iff (h : ClosestRank v rank) : top ≤ rank ↔ 2 ^ 1024 - 2 ^ 970 ≤ v := by
  have hpos := binade_pos
  have heven := binade_mod_two
  have htop : top = 2047 * binade := rfl
  have hodd : (top - 1) % 2 = 1 := by omega
  have hlast : rank ≤ top - 1 ↔ v < 2 ^ 1024 - 2 ^ 970 := by
    rw [h, middle_last, hodd]
    simp only [Nat.one_ne_zero, and_false, or_false]
  have hpassed : 2 ^ 1024 - 2 ^ 970 ≤ v ↔ ¬rank ≤ top - 1 := by rw [hlast, not_lt]
  rw [hpassed]
  omega

theorem eq_zero_iff (h : ClosestRank v rank) : rank = 0 ↔ v ≤ 1 / 2 ^ 1075 := by
  have hzero : unitsAt 0 = 0 := by decide
  have hone : unitsAt 1 = 1 := by decide
  have hmiddle : middle 0 = 1 / 2 ^ 1075 := by
    rw [middle, grid, grid, hzero, hone, cast_unitsPerOne, Nat.cast_zero, zero_div, zero_add,
      Nat.cast_one, div_div, ← pow_succ]
  rw [← Nat.le_zero, h 0, hmiddle, le_iff_lt_or_eq]
  simp only [Nat.zero_mod, and_true]

theorem rounds (h : ClosestRank v rank) : (ofRank rank).Rounds v := by
  have hfinite (hf : (ofRank rank).isInfinite = false) : (ofRank rank).rank = rank := by
    have hmin : (ofRank rank).rank = min rank top := rfl
    rw [isInfinite_eq_false_iff] at hf
    omega
  refine ⟨isCanonical_of_isInfinite_eq_false, isInfinite_ofRank_iff.trans h.top_le_iff,
    fun hf significand exponent hc => ?_, fun hf significand exponent hc htie => ?_⟩
  · obtain ⟨other, -, hother⟩ := hc.exists_rank
    rw [value_eq_grid, hfinite hf, hother]
    by_cases hne : other = rank
    · rw [hne]
    · rcases h.nearer hne with hlt | ⟨heq, -⟩
      · exact hlt.le
      · exact heq.le
  · obtain ⟨other, -, hother⟩ := hc.exists_rank
    rw [value_eq_grid, hfinite hf, hother] at htie
    rw [value_eq_grid, significand_mod_two, hfinite hf, hother]
    by_cases hne : other = rank
    · exact .inl (by rw [hne])
    · rcases h.nearer hne with hlt | ⟨-, heven, -⟩
      · exact absurd htie hlt.ne
      · exact .inr heven

/-- A value has one rounding, which is the magnitude of its closest rank. -/
theorem rounds_iff (h : ClosestRank v rank) (m : Magnitude) : m.Rounds v ↔ m = ofRank rank := by
  refine ⟨fun hm => ?_, fun hm => hm ▸ h.rounds⟩
  have htop : m.isInfinite = true ↔ top ≤ rank := hm.infinite_iff.trans h.top_le_iff.symm
  rw [eq_ofRank_iff]
  cases hf : m.isInfinite with
  | true =>
    have hlast := htop.1 hf
    rw [isInfinite, beq_iff_eq] at hf
    omega
  | false =>
    have hlt : rank < top := by
      rw [hf] at htop
      simpa using htop
    have hself : m.rank = rank := by
      by_contra hne
      obtain ⟨significand, exponent, hc, hvalue⟩ := exists_isCanonical hlt
      have hnearest := hm.nearest hf significand exponent hc
      have heven := hm.even hf significand exponent hc
      rw [hvalue, value_eq_grid, significand_mod_two] at heven
      rw [hvalue, value_eq_grid] at hnearest
      rcases h.nearer hne with hless | ⟨htie, -, hodd⟩
      · exact absurd hnearest (not_le.2 hless)
      · rcases heven htie.symm with hsame | hzero
        · exact hne (grid_strictMono.injective hsame.symm)
        · omega
    omega

end ClosestRank

end Magnitude

end LoxFrontEnd
