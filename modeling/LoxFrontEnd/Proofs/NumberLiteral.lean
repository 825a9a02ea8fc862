import LoxFrontEnd.Proofs.Content
import LoxFrontEnd.Proofs.NearestValue
import Mathlib.Order.WithBot

/-!
# Number literals

The literal of a number token is the value nearest to the rational that its text writes, however many
digits there are. What it depends on is that rational and nothing else of the text, and it grows with it.
-/

namespace LoxFrontEnd

/-! ### Written rationals -/

namespace Decimal

def value (d : Decimal) : Rat :=
  Nat.ofDigitChars 10 d.whole 0 + Nat.ofDigitChars 10 d.fraction 0 / 10 ^ d.fraction.length

inductive Writes : List Char → Decimal → Prop
  | whole {whole : List Char} :
      whole ≠ [] → (∀ d ∈ whole, d.isDigit = true) → Writes whole ⟨whole, []⟩
  | decimal {whole fraction : List Char} :
      whole ≠ [] → (∀ d ∈ whole, d.isDigit = true) →
      fraction ≠ [] → (∀ d ∈ fraction, d.isDigit = true) →
      Writes (whole ++ '.' :: fraction) ⟨whole, fraction⟩

theorem Writes.ofText {text : List Char} {d : Decimal} (h : Writes text d) :
    Decimal.ofText text = d := by
  cases h with
  | whole _ hw => exact ofText_whole hw
  | decimal _ hw _ hf => exact ofText_decimal hw hf

theorem exists_writes {text : List Char} (h : Lexeme .number text) : ∃ d, Writes text d := by
  cases h with
  | single hm => simp [Kind.singles] at hm
  | plain hm => simp [Kind.equalSuffixed] at hm
  | withEqual hm => simp [Kind.equalSuffixed] at hm
  | word _ _ hk => exact hk.elim
  | whole hc hmore =>
    exact ⟨_, .whole (List.cons_ne_nil _ _) (List.forall_mem_cons.2 ⟨hc, hmore⟩)⟩
  | decimal hc hmore hd hf =>
    exact ⟨_, .decimal (List.cons_ne_nil _ _) (List.forall_mem_cons.2 ⟨hc, hmore⟩)
      (List.cons_ne_nil _ _) (List.forall_mem_cons.2 ⟨hd, hf⟩)⟩

theorem denominator_pos (d : Decimal) : 0 < d.denominator := Nat.pow_pos (by omega)

theorem value_eq_div (d : Decimal) : d.value = d.numerator / d.denominator := by
  have hnumerator : d.numerator = 10 ^ d.fraction.length * Nat.ofDigitChars 10 d.whole 0 +
      Nat.ofDigitChars 10 d.fraction 0 := by
    have hread : d.numerator = Nat.ofDigitChars 10 (d.whole ++ d.fraction) 0 := rfl
    rw [hread, Nat.ofDigitChars_append, Nat.ofDigitChars_eq_ofDigitChars_zero]
  have hdenominator : d.denominator = 10 ^ d.fraction.length := rfl
  have hpos : (10 : Rat) ^ d.fraction.length ≠ 0 := by positivity
  rw [hnumerator, hdenominator, value]
  push_cast
  field_simp

theorem ofDigitChars_zeros (n init : Nat) :
    Nat.ofDigitChars 10 (List.replicate n '0') init = 10 ^ n * init := by
  induction n generalizing init with
  | zero => rw [List.replicate_zero, Nat.ofDigitChars_nil, Nat.pow_zero, Nat.one_mul]
  | succ n ih =>
    rw [List.replicate_succ, Nat.ofDigitChars_cons, ih, Nat.pow_succ, Nat.mul_assoc]
    rfl

/-- Zeros in front of the whole part and behind the fraction, a fraction of zeros among them, do not
change the rational. -/
theorem value_zeros (d : Decimal) (before after : Nat) :
    value ⟨List.replicate before '0' ++ d.whole, d.fraction ++ List.replicate after '0'⟩ =
      d.value := by
  have hpos : (10 : Rat) ^ d.fraction.length ≠ 0 := by positivity
  have hpos' : (10 : Rat) ^ after ≠ 0 := by positivity
  simp only [value]
  rw [Nat.ofDigitChars_append, Nat.ofDigitChars_append, ofDigitChars_zeros, ofDigitChars_zeros,
    Nat.mul_zero, List.length_append, List.length_replicate, pow_add]
  push_cast
  field_simp

end Decimal

/-! ### The order of values -/

def Magnitude.extended (m : Magnitude) : WithTop Rat := if m.isInfinite then ⊤ else m.value

theorem Magnitude.extended_mono {m m' : Magnitude} (h : m.rank ≤ m'.rank) :
    m.extended ≤ m'.extended := by
  cases hf' : m'.isInfinite with
  | true =>
    rw [extended, extended, hf', if_pos rfl]
    exact le_top
  | false =>
    have hlt' := isInfinite_eq_false_iff.1 hf'
    have hf := isInfinite_eq_false_iff.2 (Nat.lt_of_le_of_lt h hlt')
    rw [extended, extended, hf, hf', if_neg Bool.false_ne_true, if_neg Bool.false_ne_true,
      WithTop.coe_le_coe]
    exact grid_strictMono.monotone h

namespace Binary64

/-- Where a value stands among the rationals and the two infinities, if it is a number. -/
def extended? : Binary64 → Option (WithBot (WithTop Rat))
  | nan => none
  | signed false m => some m.extended
  | signed true m => some (if m.isInfinite then ⊥ else ((-m.value : Rat) : WithTop Rat))

def Le (x y : Binary64) : Prop := ∃ a ∈ x.extended?, ∃ b ∈ y.extended?, a ≤ b

theorem le_of_rank_le {m m' : Magnitude} (h : m.rank ≤ m'.rank) :
    Le (signed false m) (signed false m') :=
  ⟨_, rfl, _, rfl, WithBot.coe_le_coe.2 (Magnitude.extended_mono h)⟩

end Binary64

/-! ### Literals -/

open Magnitude

theorem exists_literal_of_mem_tokens {source : String} {t : Token} (h : t ∈ (scan source).tokens)
    (hk : t.kind = .number) : ∃ d rank, Decimal.Writes t.lexeme.toList d ∧ ClosestRank d.value rank ∧
      t.literal = some (.number (.signed false (ofRank rank))) := by
  rw [Scan.tokens, List.mem_append, List.mem_singleton] at h
  rcases h with h | rfl
  · obtain ⟨hlexeme, hliteral⟩ := exists_lexeme_of_mem_tokensFrom h
    rw [hk] at hlexeme hliteral
    obtain ⟨d, hd⟩ := Decimal.exists_writes hlexeme
    have hclosest := closestRank_nearestRank d.numerator d.denominator_pos
    rw [← d.value_eq_div] at hclosest
    refine ⟨d, _, hd, hclosest, hliteral.trans ?_⟩
    rw [Literal.ofLexeme?, hd.ofText, Decimal.toBinary64, Binary64.ofQuotient, nearest_eq_ofRank]
  · cases hk

/-- The literal of a number token is the one value that the rational of its text rounds to, ties going to
the even significand; it is infinite from half a step past the largest finite value on, and zero up to
half the smallest one. Tokens that write the same rational have the same literal, and a larger rational
has no smaller literal. -/
theorem number_literals :
    (∀ source : String, ∀ t ∈ (scan source).tokens, t.kind = .number →
      ∃ d m, Decimal.Writes t.lexeme.toList d ∧
        t.literal = some (.number (.signed false m)) ∧
        (∀ m' : Magnitude, m'.Rounds d.value ↔ m' = m) ∧
        (m = .infinity ↔ 2 ^ 1024 - 2 ^ 970 ≤ d.value) ∧
        (m = .zero ↔ d.value ≤ 1 / 2 ^ 1075)) ∧
    ∀ source source' : String, ∀ t ∈ (scan source).tokens, ∀ t' ∈ (scan source').tokens,
      t.kind = .number → t'.kind = .number →
      ∀ d d', Decimal.Writes t.lexeme.toList d → Decimal.Writes t'.lexeme.toList d' →
        (d.value = d'.value → t.literal = t'.literal) ∧
        (d.value ≤ d'.value → ∃ x x', t.literal = some (.number x) ∧
          t'.literal = some (.number x') ∧ x.Le x') := by
  constructor
  · intro source t ht hk
    obtain ⟨d, rank, hd, hclosest, hliteral⟩ := exists_literal_of_mem_tokens ht hk
    refine ⟨d, ofRank rank, hd, hliteral, hclosest.rounds_iff, ?_, ?_⟩
    · rw [← hclosest.top_le_iff, infinity, eq_ofRank_iff, Nat.min_self]
      exact min_eq_right_iff
    · have hmin : (ofRank rank).rank = min rank top := rfl
      have hpos : 0 < top := by decide
      rw [← hclosest.eq_zero_iff, zero, eq_ofRank_iff]
      omega
  · intro source source' t ht t' ht' hk hk' d d' hd hd'
    obtain ⟨_, rank, hw, hclosest, hliteral⟩ := exists_literal_of_mem_tokens ht hk
    obtain ⟨_, rank', hw', hclosest', hliteral'⟩ := exists_literal_of_mem_tokens ht' hk'
    obtain rfl : _ = d := hw.ofText.symm.trans hd.ofText
    obtain rfl : _ = d' := hw'.ofText.symm.trans hd'.ofText
    constructor
    · intro heq
      have hrank : rank = rank' :=
        Nat.le_antisymm (hclosest.mono hclosest' heq.le) (hclosest'.mono hclosest heq.ge)
      rw [hliteral, hliteral', hrank]
    · intro hle
      exact ⟨_, _, hliteral, hliteral',
        Binary64.le_of_rank_le (ofRank_mono (hclosest.mono hclosest' hle))⟩

/-- Seven, written in two ways. -/
theorem number_literals_seven : ∃ t ∈ (scan "7").tokens, ∃ t' ∈ (scan "007.00").tokens,
    t.kind = .number ∧ t'.kind = .number ∧ t.literal = t'.literal := by
  obtain ⟨t, ht, hk, hl⟩ :
      ∃ t ∈ (scan "7").tokens, t.kind = .number ∧ t.lexeme.toList = ['7'] := by
    decide +kernel
  obtain ⟨t', ht', hk', hl'⟩ : ∃ t ∈ (scan "007.00").tokens,
      t.kind = .number ∧ t.lexeme.toList = ['0', '0', '7'] ++ '.' :: ['0', '0'] := by
    decide +kernel
  have hd : Decimal.Writes t.lexeme.toList ⟨['7'], []⟩ := by
    rw [hl]
    exact .whole (List.cons_ne_nil _ _) (List.all_eq_true.1 rfl)
  have hd' : Decimal.Writes t'.lexeme.toList ⟨['0', '0', '7'], ['0', '0']⟩ := by
    rw [hl']
    exact .decimal (List.cons_ne_nil _ _) (List.all_eq_true.1 rfl) (List.cons_ne_nil _ _)
      (List.all_eq_true.1 rfl)
  have hvalue : Decimal.value ⟨['7'], []⟩ = Decimal.value ⟨['0', '0', '7'], ['0', '0']⟩ :=
    (Decimal.value_zeros ⟨['7'], []⟩ 2 2).symm
  exact ⟨t, ht, t', ht', hk, hk', (number_literals.2 _ _ t ht t' ht' hk hk' _ _ hd hd').1 hvalue⟩

end LoxFrontEnd
