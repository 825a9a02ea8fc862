import LoxFrontEnd.Proofs.Content

/-!
# Identity of tokens

A lexeme has one kind and one value, in whatever text it is read and whatever surrounds it. So two tokens
of two scans are equal exactly when they are written alike on the same line.
-/

namespace LoxFrontEnd

/-! ### Kinds of texts -/

/-- A token of the kind may have the text: a lexeme, or nothing at the end of the input. -/
def Kind.Spells (kind : Kind) (text : List Char) : Prop :=
  Lexeme kind text ∨ (kind = .endOfInput ∧ text = [])

theorem Kind.Spells.unique {kind kind' : Kind} {text : List Char} (h : kind.Spells text)
    (h' : kind'.Spells text) : kind = kind' := by
  rcases h with h | ⟨rfl, hnil⟩
  · rcases h' with h' | ⟨-, hnil⟩
    · exact h.kind_unique h'
    · exact absurd hnil h.text_ne_nil
  · rcases h' with h' | ⟨rfl, -⟩
    · exact absurd hnil h'.text_ne_nil
    · rfl

theorem spells_of_mem_tokens {source : String} {t : Token} (h : t ∈ (scan source).tokens) :
    t.kind.Spells t.lexeme.toList := by
  rw [Scan.tokens, List.mem_append, List.mem_singleton] at h
  rcases h with h | rfl
  · exact .inl (exists_lexeme_of_mem_tokensFrom h).1
  · exact .inr ⟨rfl, rfl⟩

/-! ### Values -/

theorem Literal.isNan_of_ofLexeme? {kind : Kind} {lexeme : List Char} {value : Literal}
    (h : ofLexeme? kind lexeme = some value) : value.isNan = false := by
  unfold ofLexeme? at h
  split at h
  · cases h
    rfl
  · cases h
    rfl
  · cases h

section

variable {source source' : String} {t t' : Token}

theorem isNan_of_mem_tokens (h : t ∈ (scan source).tokens) {value : Literal}
    (hv : t.literal = some value) : value.isNan = false := by
  rw [literal_of_mem_tokens h] at hv
  exact Literal.isNan_of_ofLexeme? hv

/-! ### Equality -/

/-- The lexeme settles all that a token is but its place. -/
theorem kind_and_literal_of_lexeme_eq (h : t ∈ (scan source).tokens)
    (h' : t' ∈ (scan source').tokens) (hl : t.lexeme = t'.lexeme) :
    t.kind = t'.kind ∧ t.literal = t'.literal := by
  have hspells := spells_of_mem_tokens h'
  rw [← hl] at hspells
  have hkind : t.kind = t'.kind := (spells_of_mem_tokens h).unique hspells
  refine ⟨hkind, ?_⟩
  rw [literal_of_mem_tokens h, literal_of_mem_tokens h', hkind, hl]

theorem equal_iff_of_mem_tokens (h : t ∈ (scan source).tokens) (h' : t' ∈ (scan source').tokens) :
    t.equal t' = true ↔ t.lexeme = t'.lexeme ∧ t.line = t'.line := by
  rw [Token.equal_iff]
  constructor
  · rintro ⟨-, hlexeme, -, hline⟩
    exact ⟨hlexeme, hline⟩
  · rintro ⟨hlexeme, hline⟩
    obtain ⟨hkind, hliteral⟩ := kind_and_literal_of_lexeme_eq h h' hlexeme
    refine ⟨hkind, hlexeme, ?_, hline⟩
    -- a value is compared with itself, and it is a number or a text
    rw [← hliteral, Token.sameLiteral_self, Bool.not_eq_true', Option.any_eq_false]
    exact fun value => isNan_of_mem_tokens h

end

/-- The token is one of those that some source yields. -/
def Token.Scanned (t : Token) : Prop := ∃ source : String, t ∈ (scan source).tokens

theorem Token.Scanned.equal_iff {t t' : Token} (h : t.Scanned) (h' : t'.Scanned) :
    t.equal t' = true ↔ t.lexeme = t'.lexeme ∧ t.line = t'.line := by
  obtain ⟨source, ht⟩ := h
  obtain ⟨source', ht'⟩ := h'
  exact equal_iff_of_mem_tokens ht ht'

/-- Tokens of any two scans, the ends of the input among them, are equal exactly when lexeme and line
are. The lexeme alone settles kind and value, no value is different from itself, and where the tokens
begin does not count. So equality is an equivalence on the tokens of scans. -/
theorem token_identity :
    (∀ source source' : String, ∀ t ∈ (scan source).tokens, ∀ t' ∈ (scan source').tokens,
      (t.equal t' = true ↔ t.lexeme = t'.lexeme ∧ t.line = t'.line) ∧
      (t.lexeme = t'.lexeme → t.kind = t'.kind ∧ t.literal = t'.literal) ∧
      (∀ value, t.literal = some value → value.isNan = false) ∧
      ∀ offset offset' : Int,
        Token.equal { t with offset } { t' with offset := offset' } = t.equal t') ∧
    Equivalence fun t t' : { t : Token // t.Scanned } => t.1.equal t'.1 = true := by
  constructor
  · intro source source' t ht t' ht'
    exact ⟨equal_iff_of_mem_tokens ht ht', kind_and_literal_of_lexeme_eq ht ht',
      fun value => isNan_of_mem_tokens ht, fun offset offset' => rfl⟩
  · exact
      { refl := fun t => (t.2.equal_iff t.2).2 ⟨rfl, rfl⟩
        symm := fun {t t'} h => by
          obtain ⟨hlexeme, hline⟩ := (t.2.equal_iff t'.2).1 h
          exact (t'.2.equal_iff t.2).2 ⟨hlexeme.symm, hline.symm⟩
        trans := fun {t t' u} h h' => by
          obtain ⟨hlexeme, hline⟩ := (t.2.equal_iff t'.2).1 h
          obtain ⟨hlexeme', hline'⟩ := (t'.2.equal_iff u.2).1 h'
          exact (t.2.equal_iff u.2).2 ⟨hlexeme.trans hlexeme', hline.trans hline'⟩ }

/-- A number is read between a stray character and a point as it is read alone; an end of the input is
equal to another one on its line and to none on the next. -/
theorem token_identity_surrounded :
    (∃ t ∈ (scan "7.5").tokens, ∃ t' ∈ (scan "@7.5.").tokens,
      t.kind = .number ∧ t.offset ≠ t'.offset ∧ t.equal t' = true ∧ t.literal = t'.literal ∧
        ∃ value, t.literal = some value ∧ value.isNan = false) ∧
    ∃ e ∈ (scan "7.5").tokens, ∃ e' ∈ (scan "@7.5.").tokens, ∃ e'' ∈ (scan "\n").tokens,
      e.kind = .endOfInput ∧ e.equal e' = true ∧ e.equal e'' = false := by
  have hvalue : Literal.ofLexeme? .number "7.5".toList =
      some (.number (Decimal.ofText "7.5".toList).toBinary64) := rfl
  have hseven : ⟨.number, "7.5", Literal.ofLexeme? .number "7.5".toList, 1, 0⟩ ∈
      (scan "7.5").tokens := by
    decide +kernel
  have hamid : ⟨.number, "7.5", Literal.ofLexeme? .number "7.5".toList, 1, 1⟩ ∈
      (scan "@7.5.").tokens := by
    decide +kernel
  have hend : ⟨.endOfInput, "", none, 1, 3⟩ ∈ (scan "7.5").tokens := by decide +kernel
  have hend' : ⟨.endOfInput, "", none, 1, 5⟩ ∈ (scan "@7.5.").tokens := by decide +kernel
  have hnext : ⟨.endOfInput, "", none, 2, 1⟩ ∈ (scan "\n").tokens := by decide +kernel
  obtain ⟨hequal, hlexeme, hnan, -⟩ := token_identity.1 _ _ _ hseven _ hamid
  constructor
  · refine ⟨_, hseven, _, hamid, rfl, by decide, hequal.2 ⟨rfl, rfl⟩, (hlexeme rfl).2, ?_⟩
    exact ⟨_, hvalue, hnan _ hvalue⟩
  · refine ⟨_, hend, _, hend', _, hnext, rfl, ?_, ?_⟩
    · exact (token_identity.1 _ _ _ hend _ hend').1.2 ⟨rfl, rfl⟩
    · rw [← Bool.not_eq_true]
      intro he
      exact absurd ((token_identity.1 _ _ _ hend _ hnext).1.1 he).2 (by decide)

end LoxFrontEnd
