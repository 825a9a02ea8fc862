import LoxFrontEnd.Source.Piece
import Mathlib.Tactic.SplitIfs

/-!
# First characters and first cuts

Every character has one role, and the roles are told apart by the marks, blanks and character classes
of the language. The role of the first character of a text says how its first piece is cut off, and a
stretch of characters of one class ends before the first character of another.
-/

namespace LoxFrontEnd

/-! ### The role of a first character -/

theorem ne_of_class {α : Type} {p : α → Bool} {a b : α} (ha : p a = true) (hb : p b = false) :
    a ≠ b := by
  intro he
  rw [he, hb] at ha
  contradiction

theorem isWordPart_of_isDigit {c : Char} (h : c.isDigit = true) : isWordPart c = true := by
  simp [isWordPart, h]

theorem isWordPart_of_isWordStart {c : Char} (h : isWordStart c = true) : isWordPart c = true := by
  simp [isWordPart, h]

theorem le_toNat_of_isAlpha {c : Char} (h : c.isAlpha = true) : 65 ≤ c.toNat := by
  rcases Bool.or_eq_true_iff.1 h with hupper | hlower
  · exact UInt32.le_iff_toNat_le.1 (of_decide_eq_true hupper).1
  · have ha : 97 ≤ c.toNat :=
      UInt32.le_iff_toNat_le.1 (of_decide_eq_true (Bool.and_eq_true_iff.1 hlower).1)
    omega

theorem isDigit_eq_false_of_isWordStart {c : Char} (h : isWordStart c = true) :
    c.isDigit = false := by
  rw [isWordStart, Bool.or_eq_true, beq_iff_eq] at h
  rw [← Bool.not_eq_true]
  intro hd
  have h9 : c.toNat ≤ 57 := (Char.isDigit_iff_toNat.1 hd).2
  cases h with
  | inl halpha =>
    have hA := le_toNat_of_isAlpha halpha
    omega
  | inr hunderscore =>
    subst hunderscore
    contradiction

theorem isBlank_iff {c : Char} : isBlank c = true ↔ c = ' ' ∨ c = '\r' ∨ c = '\t' ∨ c = '\n' := by
  simp [isBlank, or_assoc]

theorem isWordPart_eq_false_of_isBlank {c : Char} (h : isBlank c = true) : isWordPart c = false := by
  rcases isBlank_iff.1 h with rfl | rfl | rfl | rfl <;> decide

namespace Lead

theorem of_single {c : Char} {kind : Kind} (h : (c, kind) ∈ Kind.singles) : of c = .single kind := by
  have hall : ∀ p ∈ Kind.singles, of p.1 = .single p.2 := by decide
  exact hall (c, kind) h

theorem of_equalSuffixed {c : Char} {plain withEqual : Kind}
    (h : (c, plain, withEqual) ∈ Kind.equalSuffixed) : of c = .equalSuffixed plain withEqual := by
  have hall : ∀ p ∈ Kind.equalSuffixed, of p.1 = .equalSuffixed p.2.1 p.2.2 := by decide
  exact hall (c, plain, withEqual) h

theorem of_blank {c : Char} (h : isBlank c = true) : of c = .blank := by
  rcases isBlank_iff.1 h with rfl | rfl | rfl | rfl <;> decide

theorem of_wordPart {c : Char} (h : isWordPart c = true) :
    of c = if c.isDigit then .digit else .word := by
  have hs : Kind.single? c = none := by
    have hall : ∀ p ∈ Kind.singles, isWordPart p.1 = false := by decide
    rw [Kind.single?, List.lookup_eq_none_iff]
    intro p hp
    rw [bne_iff_ne]
    exact ne_of_class h (hall p hp)
  have he : Kind.equalSuffixed? c = none := by
    have hall : ∀ p ∈ Kind.equalSuffixed, isWordPart p.1 = false := by decide
    rw [Kind.equalSuffixed?, List.lookup_eq_none_iff]
    intro p hp
    rw [bne_iff_ne]
    exact ne_of_class h (hall p hp)
  have hslash : c ≠ '/' := ne_of_class h (by decide)
  have hquote : c ≠ '"' := ne_of_class h (by decide)
  have hblank : ¬isBlank c = true := by
    intro hb
    rw [isWordPart_eq_false_of_isBlank hb] at h
    contradiction
  simp only [of, hs, he, if_neg hslash, if_neg hblank, if_neg hquote]
  by_cases hd : c.isDigit = true
  · rw [if_pos hd, if_pos hd]
  · have hw : isWordStart c = true := by
      rw [isWordPart, Bool.or_eq_true] at h
      exact h.resolve_right hd
    rw [if_neg hd, if_neg hd, if_pos hw]

theorem of_digit {c : Char} (h : c.isDigit = true) : of c = .digit := by
  rw [of_wordPart (isWordPart_of_isDigit h), if_pos h]

theorem of_word {c : Char} (h : isWordStart c = true) : of c = .word := by
  rw [of_wordPart (isWordPart_of_isWordStart h), isDigit_eq_false_of_isWordStart h]
  rfl

/-- What a role says about the character that has it. -/
def Fits (lead : Lead) (c : Char) : Prop :=
  match lead with
  | .single kind => (c, kind) ∈ Kind.singles
  | .equalSuffixed plain withEqual => (c, plain, withEqual) ∈ Kind.equalSuffixed
  | .slash => c = '/'
  | .blank => isBlank c = true
  | .quote => c = '"'
  | .digit => c.isDigit = true
  | .word => isWordStart c = true
  | .nothing => True

theorem fits_of (c : Char) : (of c).Fits c := by
  unfold of
  split
  · next kind h =>
    obtain ⟨before, after, he, -⟩ := List.lookup_eq_some_iff.1 h
    simp [Fits, he]
  · split
    · next plain withEqual h =>
      obtain ⟨before, after, he, -⟩ := List.lookup_eq_some_iff.1 h
      simp [Fits, he]
    · split_ifs with hslash hblank hquote hdigit hword
      · exact hslash
      · exact hblank
      · exact hquote
      · exact hdigit
      · exact hword
      · trivial

end Lead

/-! ### The first cut, by role -/

namespace Cut

theorem first_single {c : Char} {kind : Kind} (h : (c, kind) ∈ Kind.singles) (rest : List Char) :
    first c rest = token kind [c] rest := by
  simp only [first, Lead.of_single h]

theorem first_equalSuffixed {c : Char} {plain withEqual : Kind}
    (h : (c, plain, withEqual) ∈ Kind.equalSuffixed) (rest : List Char) :
    first c rest = equalSuffixed plain withEqual c rest := by
  simp only [first, Lead.of_equalSuffixed h]

theorem first_slash (rest : List Char) : first '/' rest = slash '/' rest := by
  simp only [first, Lead.of_slash]

theorem first_blank {c : Char} (h : isBlank c = true) (rest : List Char) :
    first c rest = trivia [c] rest := by
  simp only [first, Lead.of_blank h]

theorem first_quote (rest : List Char) : first '"' rest = string '"' rest := by
  simp only [first, Lead.of_quote]

theorem first_digit {c : Char} (h : c.isDigit = true) (rest : List Char) :
    first c rest = number c rest := by
  simp only [first, Lead.of_digit h]

theorem first_word {c : Char} (h : isWordStart c = true) (rest : List Char) :
    first c rest = word c rest := by
  simp only [first, Lead.of_word h]

theorem first_nothing {c : Char} (h : Lead.of c = .nothing) (rest : List Char) :
    first c rest = fault (.unexpected c) [c] rest := by
  simp only [first, h]

end Cut

/-! ### Stretches -/

def leads (p : Char → Bool) (text : List Char) : Bool := text.head?.any p

theorem leads_nil (p : Char → Bool) : leads p [] = false := rfl

theorem leads_cons (p : Char → Bool) (c : Char) (text : List Char) : leads p (c :: text) = p c := rfl

theorem exists_cons_of_leads {p : Char → Bool} {text : List Char} (h : leads p text = true) :
    ∃ c more, text = c :: more ∧ p c = true := by
  cases text with
  | nil => contradiction
  | cons c more => exact ⟨c, more, rfl, h⟩

theorem stretch_all_append {p : Char → Bool} {text : List Char} (h : ∀ c ∈ text, p c = true)
    (rest : List Char) :
    stretch p (text ++ rest) = (text ++ (stretch p rest).1, (stretch p rest).2) := by
  simp only [stretch, List.takeWhile_append_of_pos h, List.dropWhile_append_of_pos h]

theorem stretch_of_not_leads {p : Char → Bool} {rest : List Char} (h : leads p rest = false) :
    stretch p rest = ([], rest) := by
  cases rest with
  | nil => rfl
  | cons c rest =>
    have hc : ¬p c = true := by
      rw [leads_cons] at h
      rw [h]
      exact Bool.false_ne_true
    simp only [stretch, List.takeWhile_cons_of_neg hc, List.dropWhile_cons_of_neg hc]

theorem stretch_length_pos {p : Char → Bool} {rest : List Char} (h : leads p rest = true) :
    0 < (stretch p rest).1.length := by
  obtain ⟨c, rest, rfl, hc⟩ := exists_cons_of_leads h
  simp only [stretch, List.takeWhile_cons_of_pos hc, List.length_cons]
  omega

/-- A stretch is cut off exactly where a character of another class, or nothing, comes after it. -/
theorem stretch_exact {p : Char → Bool} {text rest : List Char} (h : ∀ c ∈ text, p c = true)
    (hr : leads p rest = false) : stretch p (text ++ rest) = (text, rest) := by
  rw [stretch_all_append h, stretch_of_not_leads hr, List.append_nil]

theorem stretch_all {p : Char → Bool} {text : List Char} (h : ∀ c ∈ text, p c = true) :
    stretch p text = (text, []) := by
  have hs := stretch_all_append h []
  rw [List.append_nil, stretch_of_not_leads (leads_nil p), List.append_nil] at hs
  exact hs

theorem of_mem_stretch {p : Char → Bool} {text : List Char} {c : Char} (h : c ∈ (stretch p text).1) :
    p c = true :=
  List.all_eq_true.1 List.all_takeWhile c h

theorem forall_bne_of_notMem {d : Char} {text : List Char} (h : d ∉ text) :
    ∀ c ∈ text, (c != d) = true := by
  intro c hc
  rw [bne_iff_ne]
  exact ne_of_mem_of_not_mem hc h

theorem notMem_stretch_bne (d : Char) (text : List Char) : d ∉ (stretch (· != d) text).1 := by
  intro hm
  have h := of_mem_stretch hm
  rw [bne_self_eq_false] at h
  contradiction

theorem leads_stretch (p : Char → Bool) (text : List Char) : leads p (stretch p text).2 = false := by
  have h := List.head?_dropWhile_not p text
  simp only [stretch, leads]
  cases hd : (text.dropWhile p).head? with
  | none => rfl
  | some c =>
    rw [hd] at h
    exact h

end LoxFrontEnd
