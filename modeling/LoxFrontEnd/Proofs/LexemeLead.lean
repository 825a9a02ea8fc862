import LoxFrontEnd.Proofs.Lexeme

/-!
# First characters of lexemes

What the first character of a lexeme tells about its kind. Each class of characters that may run on from
a lexeme has no blank in it and picks the lexemes that begin with one of its characters by their kinds
alone.
-/

namespace LoxFrontEnd

/-! ### Kinds of words -/

def Kind.isWord (kind : Kind) : Bool := kind == .identifier || kind.isKeyword

theorem Kind.isWord_iff {k : Kind} : k.isWord = true ↔ k = .identifier ∨ ∃ w, k = .keyword w := by
  rw [Kind.isWord, Bool.or_eq_true, beq_iff_eq]
  refine or_congr_right ?_
  constructor
  · intro h
    unfold Kind.isKeyword at h
    split at h
    · next w => exact ⟨w, rfl⟩
    · contradiction
  · intro h
    obtain ⟨w, hw⟩ := h
    rw [hw]
    rfl

theorem Kind.beq_eq_false_of_isWord {kind k : Kind} (h : kind.isWord = true) (hk : k.isWord = false) :
    (kind == k) = false :=
  beq_eq_false_iff_ne.2 (ne_of_class h hk)

theorem Kind.Classifies.isWord {kind : Kind} {word : String} (h : kind.Classifies word) :
    kind.isWord = true := by
  unfold Kind.Classifies at h
  split at h
  · rfl
  · rfl
  · exact h.elim

/-- A kind of mark that stands once in the tables has one lexeme. -/
theorem Lexeme.eq_mark {kind : Kind} {text : List Char} {m : Char} (h : Lexeme kind text)
    (hsingle : ∀ x ∈ Kind.singles, x.2 = kind → x.1 = m) (hslash : kind = .slash → '/' = m)
    (hplain : ∀ x ∈ Kind.equalSuffixed, x.2.1 ≠ kind) (hwith : ∀ x ∈ Kind.equalSuffixed, x.2.2 ≠ kind)
    (hmark : kind ≠ .number ∧ kind ≠ .string ∧ kind.isWord = false) : text = [m] := by
  obtain ⟨hnumber, hstring, hword⟩ := hmark
  cases h with
  | @single c _ hm =>
    have hc : c = m := hsingle _ hm rfl
    rw [hc]
  | slash => rw [hslash rfl]
  | plain hm => exact absurd rfl (hplain _ hm)
  | withEqual hm => exact absurd rfl (hwith _ hm)
  | whole _ _ => exact absurd rfl hnumber
  | decimal _ _ _ _ => exact absurd rfl hnumber
  | word _ _ hk =>
    rw [hk.isWord] at hword
    contradiction
  | string _ => exact absurd rfl hstring

/-! ### Classes that pick lexemes -/

/-- A class of characters with no blank in it picks the lexemes that begin with one by their kinds. -/
structure Picks (p : Char → Bool) (q : Kind → Bool) : Prop where
  blank : ∀ c, isBlank c = true → p c = false
  lexeme : ∀ kind text, Lexeme kind text → ∀ rest, leads p (text ++ rest) = q kind

theorem Picks.of_leads {p : Char → Bool} {q : Kind → Bool}
    (hblank : ∀ c : Char, isBlank c = true → p c = false)
    (hsingle : ∀ x ∈ Kind.singles, p x.1 = q x.2) (hslash : p '/' = q .slash)
    (hplain : ∀ x ∈ Kind.equalSuffixed, p x.1 = q x.2.1)
    (hwith : ∀ x ∈ Kind.equalSuffixed, p x.1 = q x.2.2)
    (hdigit : ∀ c : Char, c.isDigit = true → p c = q .number)
    (hword : ∀ (c : Char) (kind : Kind), isWordStart c = true → kind.isWord = true → p c = q kind)
    (hquote : p '"' = q .string) : Picks p q := by
  refine ⟨hblank, ?_⟩
  intro kind text h rest
  cases h with
  | single hm => exact hsingle _ hm
  | slash => exact hslash
  | plain hm => exact hplain _ hm
  | withEqual hm => exact hwith _ hm
  | whole hc _ => exact hdigit _ hc
  | decimal hc _ _ _ => exact hdigit _ hc
  | word hc _ hk => exact hword _ _ hc hk.isWord
  | string _ => exact hquote

theorem Picks.mark {m : Char} {q : Kind → Bool} (hblank : isBlank m = false)
    (hdigit : m.isDigit = false) (hword : isWordStart m = false)
    (hsingle : ∀ x ∈ Kind.singles, (x.1 == m) = q x.2) (hslash : ('/' == m) = q .slash)
    (hplain : ∀ x ∈ Kind.equalSuffixed, (x.1 == m) = q x.2.1)
    (hwith : ∀ x ∈ Kind.equalSuffixed, (x.1 == m) = q x.2.2)
    (hnumber : q .number = false) (hkinds : ∀ kind : Kind, kind.isWord = true → q kind = false)
    (hquote : ('"' == m) = q .string) : Picks (· == m) q := by
  refine .of_leads (fun c hc => ?_) hsingle hslash hplain hwith (fun c hc => ?_)
    (fun c kind hc hk => ?_) hquote
  · exact beq_eq_false_iff_ne.2 (ne_of_class hc hblank)
  · rw [hnumber]
    exact beq_eq_false_iff_ne.2 (ne_of_class hc hdigit)
  · rw [hkinds kind hk]
    exact beq_eq_false_iff_ne.2 (ne_of_class hc hword)

theorem Picks.or {p p' : Char → Bool} {q q' : Kind → Bool} (h : Picks p q) (h' : Picks p' q') :
    Picks (fun c => p c || p' c) (fun k => q k || q' k) := by
  refine ⟨fun c hc => ?_, fun kind text hl rest => ?_⟩
  · rw [h.blank c hc, h'.blank c hc]
    rfl
  · rw [← h.lexeme kind text hl rest, ← h'.lexeme kind text hl rest]
    cases text ++ rest <;> rfl

/-! ### The classes that matter after a lexeme -/

theorem picks_digit : Picks Char.isDigit (· == .number) := by
  refine .of_leads (fun c hc => ?_) (by decide) (by decide) (by decide) (by decide) (fun c hc => hc)
    (fun c kind hc hk => ?_) (by decide)
  · rcases isBlank_iff.1 hc with rfl | rfl | rfl | rfl <;> decide
  · rw [isDigit_eq_false_of_isWordStart hc, Kind.beq_eq_false_of_isWord hk (by decide)]

theorem picks_wordPart : Picks isWordPart fun k => k.isWord || k == .number := by
  refine .of_leads (fun c => isWordPart_eq_false_of_isBlank) (by decide) (by decide) (by decide)
    (by decide) (fun c => isWordPart_of_isDigit) (fun c kind hc hk => ?_) (by decide)
  rw [isWordPart_of_isWordStart hc, hk, Bool.true_or]

theorem picks_equalSign : Picks (· == '=') fun k => k == .equal || k == .equalEqual := by
  refine .mark (by decide) (by decide) (by decide) (by decide) (by decide) (by decide) (by decide)
    (by decide) (fun kind hk => ?_) (by decide)
  rw [Kind.beq_eq_false_of_isWord hk (by decide), Kind.beq_eq_false_of_isWord hk (by decide),
    Bool.or_false]

theorem picks_slash : Picks (· == '/') (· == .slash) :=
  .mark (by decide) (by decide) (by decide) (by decide) (by decide) (by decide) (by decide)
    (by decide) (fun _ hk => Kind.beq_eq_false_of_isWord hk (by decide)) (by decide)

theorem picks_star : Picks (· == '*') (· == .star) :=
  .mark (by decide) (by decide) (by decide) (by decide) (by decide) (by decide) (by decide)
    (by decide) (fun _ hk => Kind.beq_eq_false_of_isWord hk (by decide)) (by decide)

theorem picks_point : Picks (· == '.') (· == .dot) :=
  .mark (by decide) (by decide) (by decide) (by decide) (by decide) (by decide) (by decide)
    (by decide) (fun _ hk => Kind.beq_eq_false_of_isWord hk (by decide)) (by decide)

/-! ### Texts that break off -/

/-- The second text is the first one up to some place, and after that nothing, or a blank and anything
at all. -/
inductive BreaksOff : List Char → List Char → Prop
  | nothing (text : List Char) : BreaksOff text []
  | blank {c : Char} (text more : List Char) : isBlank c = true → BreaksOff text (c :: more)
  | same (c : Char) {text other : List Char} : BreaksOff text other → BreaksOff (c :: text) (c :: other)

theorem Picks.leads_of_breaksOff {p : Char → Bool} {q : Kind → Bool} {text other : List Char}
    (hp : Picks p q) (h : BreaksOff text other) (hl : leads p other = true) :
    leads p text = true ∧ BreaksOff text.tail other.tail := by
  cases h with
  | nothing => contradiction
  | blank _ _ hb =>
    rw [leads_cons, hp.blank _ hb] at hl
    contradiction
  | same c hrest => exact ⟨hl, hrest⟩

/-- To break off what follows a lexeme leaves nothing that runs on from it unless there was before. -/
theorem Kind.runsOn_of_breaksOff {kind : Kind} {lexeme text other : List Char}
    (h : BreaksOff text other) (hr : kind.runsOn lexeme other = true) :
    kind.runsOn lexeme text = true := by
  unfold Kind.runsOn at hr ⊢
  split at hr
  · exact ((picks_slash.or picks_star).leads_of_breaksOff h hr).1
  · exact (picks_equalSign.leads_of_breaksOff h hr).1
  · exact (picks_equalSign.leads_of_breaksOff h hr).1
  · exact (picks_equalSign.leads_of_breaksOff h hr).1
  · exact (picks_equalSign.leads_of_breaksOff h hr).1
  · exact (picks_wordPart.leads_of_breaksOff h hr).1
  · exact (picks_wordPart.leads_of_breaksOff h hr).1
  · rw [Bool.or_eq_true, Bool.and_eq_true, Bool.and_eq_true] at hr ⊢
    rcases hr with hd | ⟨⟨hn, hp⟩, hd⟩
    · exact .inl (picks_digit.leads_of_breaksOff h hd).1
    · obtain ⟨hpoint, htail⟩ := picks_point.leads_of_breaksOff h hp
      exact .inr ⟨⟨hn, hpoint⟩, (picks_digit.leads_of_breaksOff htail hd).1⟩
  · contradiction

/-- Nothing runs on from a lexeme across a blank. -/
theorem Kind.runsOn_blank {c : Char} (hc : isBlank c = true) (kind : Kind) (lexeme more : List Char) :
    kind.runsOn lexeme (c :: more) = false := by
  rw [← Bool.not_eq_true]
  intro hr
  have hnone := runsOn_of_breaksOff (.blank [] more hc) hr
  rw [runsOn_nil] at hnone
  contradiction

theorem breaksOff_of_isPrefix {text other : List Char} (h : other <+: text) : BreaksOff text other := by
  obtain ⟨more, rfl⟩ := h
  induction other with
  | nil => exact .nothing _
  | cons c other ih => exact .same c ih

theorem breaksOff_append_blank {c : Char} (hc : isBlank c = true) (text more : List Char) :
    BreaksOff text (text ++ c :: more) := by
  induction text with
  | nil => exact .blank [] more hc
  | cons d text ih => exact .same d ih

/-! ### Fading -/

/-- A text fades to another: at each index the other has the same character or a blank, if any. -/
def Fades (text other : List Char) : Prop :=
  ∀ (i : Nat) (c : Char), other[i]? = some c → isBlank c = true ∨ text[i]? = some c

theorem Fades.breaksOff {text other : List Char} (h : Fades text other) : BreaksOff text other := by
  induction other generalizing text with
  | nil => exact .nothing text
  | cons c other ih =>
    rcases h 0 c rfl with hb | ht
    · exact .blank text other hb
    · obtain ⟨rest, rfl⟩ := List.head?_eq_some_iff.1 (List.head?_eq_getElem?.trans ht)
      exact .same c (ih fun i d hd => h (i + 1) d hd)

end LoxFrontEnd
