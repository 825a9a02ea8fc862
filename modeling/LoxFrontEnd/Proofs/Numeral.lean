import LoxFrontEnd.Binary64.Notation
import LoxFrontEnd.Proofs.Unquoting

/-!
# Printed numbers

What is printed of a number stays in its field, in every notation, since it is made of digits, signs,
a point and letters. An integer is read back from its digits.
-/

namespace LoxFrontEnd

/-! ### Binary64 values -/

theorem isSeparator_of_isDigit {c : Char} (h : c.isDigit = true) : isSeparator c = false := by
  have htab : c ≠ '\t' := fun he => absurd (he ▸ h) (by decide)
  have hnewline : c ≠ '\n' := fun he => absurd (he ▸ h) (by decide)
  have hreturn : c ≠ '\r' := fun he => absurd (he ▸ h) (by decide)
  simp [isSeparator, htab, hnewline, hreturn]

theorem inline_toDigits (n : Nat) : Inline (Nat.toDigits 10 n) := fun _ hc =>
  isSeparator_of_isDigit (Nat.isDigit_of_mem_toDigits (by omega) (by omega) hc)

theorem inline_replicate_zero (n : Nat) : Inline (List.replicate n '0') := fun _ hc =>
  List.eq_of_mem_replicate hc ▸ rfl

theorem Inline.sublist {text more : List Char} (h : Inline more) (hs : text.Sublist more) :
    Inline text := fun c hc => h c (hs.subset hc)

namespace Shortest

theorem inline_withoutTrailingZeros {digits : List Char} (h : Inline digits) :
    Inline (withoutTrailingZeros digits) := by
  have hd : Inline (digits.reverse.dropWhile (· == '0')) :=
    Inline.sublist (fun c hc => h c (List.mem_reverse.1 hc)) (List.dropWhile_sublist _)
  exact fun c hc => hd c (List.mem_reverse.1 hc)

theorem inline_search (s : Span) (point count more : Nat) :
    Inline (search s point count more).digits := by
  induction more generalizing count with
  | zero =>
    intro c hc
    cases hc
  | succ more ih =>
    rw [search]
    split
    · exact inline_withoutTrailingZeros (inline_toDigits _)
    · exact ih (count + 1)

end Shortest

namespace Binary64

theorem inline_placed {digits : List Char} (h : Inline digits) (point : Int) :
    Inline (placed digits point) := by
  have hbefore : Inline (digits.take point.toNat) := h.sublist (List.take_sublist _ _)
  have hafter : Inline (digits.drop point.toNat) := h.sublist (List.drop_sublist _ _)
  have htail : Inline (if (digits.drop point.toNat).isEmpty then ['0']
      else digits.drop point.toNat) := by
    split
    · decide
    · exact hafter
  rw [placed]
  split
  · exact inline_append.2 ⟨inline_append.2 ⟨by decide, inline_replicate_zero _⟩, h⟩
  · refine inline_append.2 ⟨inline_append.2 ⟨hbefore, inline_replicate_zero _⟩, ?_⟩
    exact List.forall_mem_cons.2 ⟨rfl, htail⟩

theorem inline_exponent (e : Int) : Inline (exponent e) := by
  have hsign : isSeparator (if e < 0 then '-' else '+') = false := by
    split
    · rfl
    · rfl
  rw [exponent]
  refine List.forall_mem_cons.2 ⟨rfl, List.forall_mem_cons.2 ⟨hsign, ?_⟩⟩
  exact inline_append.2 ⟨inline_replicate_zero _, inline_toDigits _⟩

theorem inline_scientific {digits : List Char} (h : Inline digits) (point : Int) :
    Inline (scientific digits point) := by
  unfold scientific
  refine inline_append.2 ⟨?_, inline_exponent (point - 1)⟩
  split
  · exact h
  · exact h
  · rename_i d more
    obtain ⟨hd, hmore⟩ := List.forall_mem_cons.1 h
    exact List.forall_mem_cons.2 ⟨hd, List.forall_mem_cons.2 ⟨rfl, hmore⟩⟩

theorem inline_renderMagnitude (m : Magnitude) : Inline (renderMagnitude m) := by
  have hdigits : Inline m.shortest.digits := Shortest.inline_search _ _ _ _
  rw [renderMagnitude]
  split
  · decide
  · split
    · decide
    · dsimp only
      split
      · exact inline_placed hdigits _
      · exact inline_scientific hdigits _

theorem inline_render (x : Binary64) : Inline x.render := by
  cases x with
  | nan => decide
  | signed negative m =>
    have hsign : Inline (if negative then ['-'] else []) := by
      split
      · decide
      · decide
    exact inline_append.2 ⟨hsign, inline_renderMagnitude m⟩

end Binary64

/-! ### Integers -/

def readInteger (text : List Char) : Int :=
  if text.head? = some '-' then -(Nat.ofDigitChars 10 text.tail 0 : Int)
  else Nat.ofDigitChars 10 text 0

theorem toList_toString_int (n : Int) :
    (toString n).toList = (if n < 0 then ['-'] else []) ++ Nat.toDigits 10 n.natAbs := by
  rw [Int.toString_eq_repr, Int.repr_eq_if]
  by_cases h : 0 ≤ n
  · have hn : n.toNat = n.natAbs := by omega
    rw [if_pos h, if_neg (by omega), Nat.toList_repr, hn, List.nil_append]
  · have hn : (-n).toNat = n.natAbs := by omega
    rw [if_neg h, if_pos (by omega), String.toList_append, Nat.toList_repr, hn]
    rfl

theorem isDigit_or_minus_of_mem {n : Int} {c : Char} (hc : c ∈ (toString n).toList) :
    c.isDigit = true ∨ c = '-' := by
  rw [toList_toString_int, List.mem_append] at hc
  rcases hc with hc | hc
  · split at hc
    · exact .inr (List.mem_singleton.1 hc)
    · cases hc
  · exact .inl (Nat.isDigit_of_mem_toDigits (by omega) (by omega) hc)

theorem inline_toString_int (n : Int) : Inline (toString n).toList := by
  intro c hc
  rcases isDigit_or_minus_of_mem hc with hd | rfl
  · exact isSeparator_of_isDigit hd
  · rfl

theorem readInteger_toString (n : Int) : readInteger (toString n).toList = n := by
  rw [readInteger, toList_toString_int]
  by_cases h : n < 0
  · rw [if_pos h, List.singleton_append, List.head?_cons, if_pos rfl, List.tail_cons,
      Nat.ofDigitChars_ten_toDigits]
    omega
  · have hhead : (Nat.toDigits 10 n.natAbs).head? ≠ some '-' := by
      intro hm
      have hd := Nat.isDigit_of_mem_toDigits (by omega) (by omega) (List.mem_of_head? hm)
      exact absurd hd (by decide)
    rw [if_neg h, List.nil_append, if_neg hhead, Nat.ofDigitChars_ten_toDigits]
    omega

end LoxFrontEnd
