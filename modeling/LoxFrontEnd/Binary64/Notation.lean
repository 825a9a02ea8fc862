import LoxFrontEnd.Binary64.Rounding
import LoxFrontEnd.Binary64.Shortest

/-!
# Numbers as text

Writing a binary64 value in decimal, and reading a decimal. A value is written with its shortest digits:
positionally while the point falls among the first sixteen places, with at least one digit after it,
and with an exponent of at least two digits otherwise. A decimal is read as the exact quotient that it
denotes and rounded once.
-/

namespace LoxFrontEnd

def digitsValue (digits : List Char) : Nat :=
  digits.foldl (fun n c => 10 * n + (c.toNat - '0'.toNat)) 0

/-! ### Decimals -/

/-- An unsigned decimal: the digits before the point and those after it. -/
structure Decimal where
  whole : List Char
  fraction : List Char
deriving DecidableEq

namespace Decimal

/-- The decimal that a text writes, read up to the first character that does not belong to it. -/
def ofText (text : List Char) : Decimal :=
  { whole := text.takeWhile Char.isDigit
    fraction :=
      match text.dropWhile Char.isDigit with
      | '.' :: rest => rest.takeWhile Char.isDigit
      | _ => [] }

def numerator (d : Decimal) : Nat := digitsValue (d.whole ++ d.fraction)

def denominator (d : Decimal) : Nat := Nat.pow 10 d.fraction.length

def toBinary64 (d : Decimal) : Binary64 := .ofQuotient d.numerator d.denominator

end Decimal

/-! ### Writing -/

namespace Binary64

/-- Where positional notation ends: the point lies after more than `least` places and at most `most`. -/
structure Positional where
  least : Int
  most : Int

def positional : Positional := ⟨-4, 16⟩

/-- Digits with the point after the first `point` of them, filled up with zeros on either side. -/
def placed (digits : List Char) (point : Int) : List Char :=
  if point ≤ 0 then
    ['0', '.'] ++ List.replicate (-point).toNat '0' ++ digits
  else
    let before := digits.take point.toNat
    let after := digits.drop point.toNat
    before ++ List.replicate (point.toNat - before.length) '0' ++
      '.' :: (if after.isEmpty then ['0'] else after)

/-- An exponent: its sign, then at least two digits. -/
def exponent (e : Int) : List Char :=
  let digits := Nat.toDigits 10 e.natAbs
  'e' :: (if e < 0 then '-' else '+') :: (List.replicate (2 - digits.length) '0' ++ digits)

/-- Digits with the point after the first, if a second follows, and an exponent. -/
def scientific (digits : List Char) (point : Int) : List Char :=
  let mantissa :=
    match digits with
    | [] => []
    | [d] => [d]
    | d :: more => d :: '.' :: more
  mantissa ++ exponent (point - 1)

def renderMagnitude (m : Magnitude) : List Char :=
  if m.isInfinite then ['i', 'n', 'f']
  else if m.rank = 0 then ['0', '.', '0']
  else
    let d := m.shortest
    if positional.least < d.point ∧ d.point ≤ positional.most then placed d.digits d.point
    else scientific d.digits d.point

def render : Binary64 → List Char
  | nan => ['n', 'a', 'n']
  | signed negative m => (if negative then ['-'] else []) ++ renderMagnitude m

end Binary64

end LoxFrontEnd
