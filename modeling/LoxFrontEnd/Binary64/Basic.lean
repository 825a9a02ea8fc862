/-!
# The binary64 format

Values of the 64-bit binary floating-point format. A magnitude is kept by its rank: the magnitudes of
the format in increasing order, zero first and infinity last. The 2^52 ranks from `b * 2^52` on share
one exponent, so a rank is the exponent field and the fraction field read as one number, and the order
of the ranks is the order of the values.
-/

namespace LoxFrontEnd

/-! ### Magnitudes -/

/-- Fraction values that share one exponent field. -/
def Magnitude.binade : Nat := Nat.pow 2 52

/-- The rank of infinity: every exponent field below the last one comes before it. -/
def Magnitude.top : Nat := 2047 * Magnitude.binade

/-- How many of the smallest magnitude make one. -/
def Magnitude.unitsPerOne : Nat := Nat.pow 2 1074

/-- A magnitude of the format, given by its place in increasing order. -/
structure Magnitude where
  rank : Nat
  rank_le : rank ≤ Magnitude.top
deriving DecidableEq

namespace Magnitude

/-- The magnitude of a rank; every rank past the last one is infinity. -/
def ofRank (rank : Nat) : Magnitude := ⟨min rank top, Nat.min_le_right rank top⟩

def zero : Magnitude := ofRank 0

def infinity : Magnitude := ofRank top

def isInfinite (m : Magnitude) : Bool := m.rank == top

/-- How often the smallest spacing has been doubled at this magnitude. -/
def doublings (m : Magnitude) : Nat := m.rank / binade - 1

/-- The integer that, doubled `doublings` times, counts the smallest units. -/
def significand (m : Magnitude) : Nat := m.rank - m.doublings * binade

def units (m : Magnitude) : Nat := m.significand * Nat.pow 2 m.doublings

/-- The next magnitude down is nearer than the next one up: the least of its exponent, which is not
the least exponent. -/
def narrowBelow (m : Magnitude) : Bool := m.rank % binade == 0 && 0 < m.doublings

theorem rank_ofRank {rank : Nat} (h : rank ≤ top) : (ofRank rank).rank = rank := by
  simp only [ofRank]
  exact Nat.min_eq_left h

theorem ofRank_mono {r s : Nat} (h : r ≤ s) : (ofRank r).rank ≤ (ofRank s).rank := by
  simp only [ofRank]
  omega

end Magnitude

/-! ### Values -/

/-- A binary64 value; all that are not numbers count as one. -/
inductive Binary64 where
  | nan
  | signed (negative : Bool) (magnitude : Magnitude)
deriving DecidableEq

namespace Binary64

/-- Equality of numbers: the two zeros are equal, and what is no number equals nothing. -/
def equal : Binary64 → Binary64 → Bool
  | signed n m, signed n' m' => m.rank == m'.rank && (n == n' || m.rank == 0)
  | _, _ => false

def isNan : Binary64 → Bool
  | nan => true
  | signed _ _ => false

theorem equal_self (x : Binary64) : x.equal x = !x.isNan := by
  cases x <;> simp [equal, isNan]

end Binary64

end LoxFrontEnd
