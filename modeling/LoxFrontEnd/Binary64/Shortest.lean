import LoxFrontEnd.Binary64.Basic

/-!
# The fewest digits that read back

A finite magnitude is written with the fewest decimal digits that are nearer to it than to any other
magnitude; of those with equally few digits, the nearest. All lengths are whole numbers of quarters of
the smallest unit, scaled by a power of ten that makes every decimal grid whole.
-/

namespace LoxFrontEnd

/-- A positive decimal: `0.d₁d₂…` times ten to the power `point`. -/
structure DecimalDigits where
  digits : List Char
  point : Int
deriving DecidableEq

namespace Shortest

/-- Ten to this power makes whole every grid of up to seventeen digits. -/
def scale : Nat := 400

def scaleFactor : Nat := Nat.pow 10 scale

/-- The reals that round to a magnitude, between `low` and `high` around `value`; the ends belong to
them when `closed`. -/
structure Span where
  low : Nat
  value : Nat
  high : Nat
  closed : Bool

/-- Quarters of the smallest unit that make one. -/
def quartersPerOne : Nat := 4 * Magnitude.unitsPerOne

/-- The span of a magnitude, in quarters of the smallest unit and ten to the power `scale` times as
large. -/
def span (m : Magnitude) : Span :=
  let step := Nat.pow 2 m.doublings * scaleFactor
  let value := 4 * m.significand * step
  { low := value - (if m.narrowBelow then step else 2 * step)
    value
    high := value + 2 * step
    closed := m.significand % 2 == 0 }

def Span.holds (s : Span) (x : Nat) : Bool :=
  if s.closed then decide (s.low ≤ x) && decide (x ≤ s.high)
  else decide (s.low < x) && decide (x < s.high)

/-- The number of the grid point of spacing `step` that stands for the span, if one lies in it: of
the two around the value the nearer, half way the even one. -/
def Span.gridPoint? (s : Span) (step : Nat) : Option Nat :=
  let below := s.value / step
  let above := below + 1
  let toBelow := s.value - below * step
  let toAbove := above * step - s.value
  match s.holds (below * step), s.holds (above * step) with
  | true, true =>
    if toBelow < toAbove ∨ (toBelow = toAbove ∧ below % 2 = 0) then some below else some above
  | true, false => some below
  | false, true => some above
  | false, false => none

/-- The least exponent from `e` on at which a power of ten exceeds `n`, if it is among the first
`tries`. -/
def powerAbove (n : Nat) : (tries : Nat) → (e : Nat) → Nat
  | 0, e => e
  | tries + 1, e => if n < Nat.pow 10 e then e else powerAbove n tries (e + 1)

/-- How many decimal digits a positive number has. Ten to the third is less than two to the tenth, so
three tenths of the binary length is no more than the decimal one. -/
def decimalLength (n : Nat) : Nat := powerAbove n (n.log2 + 1) (n.log2 * 3 / 10)

def withoutTrailingZeros (digits : List Char) : List Char :=
  (digits.reverse.dropWhile (· == '0')).reverse

/-- Try `count` digits, then one more while `more` allows. The value lies below ten to the power
`point` less `scale`, and a grid point that reaches it has one digit more. -/
def search (s : Span) (point : Nat) (count : Nat) : (more : Nat) → DecimalDigits
  | 0 => ⟨[], 0⟩
  | more + 1 =>
    match s.gridPoint? (Nat.pow 10 (point - count) * quartersPerOne) with
    | some k =>
      let digits := Nat.toDigits 10 k
      { digits := withoutTrailingZeros digits
        point := (point : Int) - scale + (digits.length : Int) - count }
    | none => search s point (count + 1) more

end Shortest

/-- The shortest decimal of a positive finite magnitude; seventeen digits always suffice. -/
def Magnitude.shortest (m : Magnitude) : DecimalDigits :=
  let s := Shortest.span m
  Shortest.search s (Shortest.decimalLength (s.value / Shortest.quartersPerOne)) 1 17

end LoxFrontEnd
