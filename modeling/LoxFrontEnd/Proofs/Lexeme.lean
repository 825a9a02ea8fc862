import LoxFrontEnd.Proofs.Lead
import LoxFrontEnd.Source.Scan

/-!
# Lexemes

The texts of tokens as a grammar, and the first cut of a text that begins with one. What follows a
lexeme may run on from it: a digit after a number, an equal sign after a mark that takes one. If it does
not, the lexeme is cut off exactly; if it does, the first piece is longer than the lexeme.
-/

namespace LoxFrontEnd

/-! ### The grammar -/

/-- The kind of a word is the keyword that it spells; a word that spells none is an identifier. -/
def Kind.Classifies (kind : Kind) (word : String) : Prop :=
  match kind with
  | .keyword k => k.spelling = word
  | .identifier => ∀ k : Keyword, k.spelling ≠ word
  | _ => False

/-- The texts that a token of a kind may have. -/
inductive Lexeme : Kind → List Char → Prop
  | single {c : Char} {kind : Kind} : (c, kind) ∈ Kind.singles → Lexeme kind [c]
  | slash : Lexeme .slash ['/']
  | plain {c : Char} {plain withEqual : Kind} :
      (c, plain, withEqual) ∈ Kind.equalSuffixed → Lexeme plain [c]
  | withEqual {c : Char} {plain withEqual : Kind} :
      (c, plain, withEqual) ∈ Kind.equalSuffixed → Lexeme withEqual [c, '=']
  | whole {c : Char} {more : List Char} :
      c.isDigit = true → (∀ d ∈ more, d.isDigit = true) → Lexeme .number (c :: more)
  | decimal {c d : Char} {more fraction : List Char} :
      c.isDigit = true → (∀ x ∈ more, x.isDigit = true) →
      d.isDigit = true → (∀ x ∈ fraction, x.isDigit = true) →
      Lexeme .number (c :: (more ++ '.' :: d :: fraction))
  | word {c : Char} {more : List Char} {kind : Kind} :
      isWordStart c = true → (∀ d ∈ more, isWordPart d = true) →
      kind.Classifies (String.ofList (c :: more)) → Lexeme kind (c :: more)
  | string {inside : List Char} :
      '"' ∉ inside → Lexeme .string ('"' :: (inside ++ ['"']))

/-- Only strings can have characters in them that begin no token. -/
theorem Lexeme.lead_of_mem {kind : Kind} {text : List Char} (h : Lexeme kind text)
    (hk : kind ≠ .string) : ∀ c ∈ text, Lead.of c ≠ .nothing ∧ Lead.of c ≠ .blank := by
  have hpart : ∀ c : Char, isWordPart c = true → Lead.of c ≠ .nothing ∧ Lead.of c ≠ .blank := by
    intro c hc
    rw [Lead.of_wordPart hc]
    split <;> simp
  have hdigit : ∀ c : Char, c.isDigit = true → Lead.of c ≠ .nothing ∧ Lead.of c ≠ .blank :=
    fun c hc => hpart c (isWordPart_of_isDigit hc)
  cases h with
  | single hm => simp [Lead.of_single hm]
  | slash => simp [Lead.of_slash]
  | plain hm => simp [Lead.of_equalSuffixed hm]
  | withEqual hm =>
    have hequal : Lead.of '=' ≠ .nothing ∧ Lead.of '=' ≠ .blank := by decide
    simp [Lead.of_equalSuffixed hm, hequal]
  | whole hc hmore => exact List.forall_mem_cons.2 ⟨hdigit _ hc, fun d hd => hdigit d (hmore d hd)⟩
  | decimal hc hmore hd hf =>
    refine List.forall_mem_cons.2 ⟨hdigit _ hc, List.forall_mem_append.2 ⟨?_, ?_⟩⟩
    · exact fun x hx => hdigit x (hmore x hx)
    · have hpoint : Lead.of '.' ≠ .nothing ∧ Lead.of '.' ≠ .blank := by decide
      exact List.forall_mem_cons.2 ⟨hpoint, List.forall_mem_cons.2
        ⟨hdigit _ hd, fun x hx => hdigit x (hf x hx)⟩⟩
  | word hc hmore _ =>
    exact List.forall_mem_cons.2 ⟨hpart _ (isWordPart_of_isWordStart hc), fun d hd => hpart d (hmore d hd)⟩
  | string _ => exact absurd rfl hk

theorem Lexeme.exists_inside {text : List Char} (h : Lexeme .string text) :
    ∃ inside, '"' ∉ inside ∧ text = '"' :: (inside ++ ['"']) := by
  cases h with
  | string hq => exact ⟨_, hq, rfl⟩
  | single hm => simp [Kind.singles] at hm
  | plain hm => simp [Kind.equalSuffixed] at hm
  | withEqual hm => simp [Kind.equalSuffixed] at hm
  | word _ _ hk => exact hk.elim

/-- The value of a token: what is between the quotes, the decimal that is written, or nothing. -/
inductive Denotes : Kind → List Char → Option Literal → Prop
  | string {inside : List Char} :
      Denotes .string ('"' :: (inside ++ ['"'])) (some (.text (String.ofList inside)))
  | whole {whole : List Char} :
      (∀ d ∈ whole, d.isDigit = true) →
      Denotes .number whole (some (.number (Decimal.toBinary64 ⟨whole, []⟩)))
  | decimal {whole fraction : List Char} :
      (∀ d ∈ whole, d.isDigit = true) → (∀ d ∈ fraction, d.isDigit = true) →
      Denotes .number (whole ++ '.' :: fraction)
        (some (.number (Decimal.toBinary64 ⟨whole, fraction⟩)))
  | nothing {kind : Kind} {text : List Char} :
      kind ≠ .string → kind ≠ .number → Denotes kind text none

theorem not_isDigit_point : ¬('.').isDigit = true := by decide

theorem Decimal.ofText_whole {whole : List Char} (h : ∀ d ∈ whole, d.isDigit = true) :
    Decimal.ofText whole = ⟨whole, []⟩ := by
  obtain ⟨ht, hd⟩ := Prod.mk.inj (stretch_all h)
  simp only [Decimal.ofText, ht, hd]

theorem Decimal.ofText_decimal {whole fraction : List Char} (hw : ∀ d ∈ whole, d.isDigit = true)
    (hf : ∀ d ∈ fraction, d.isDigit = true) :
    Decimal.ofText (whole ++ '.' :: fraction) = ⟨whole, fraction⟩ := by
  have ht : (whole ++ '.' :: fraction).takeWhile Char.isDigit = whole := by
    rw [List.takeWhile_append_of_pos hw, List.takeWhile_cons_of_neg not_isDigit_point,
      List.append_nil]
  have hd : (whole ++ '.' :: fraction).dropWhile Char.isDigit = '.' :: fraction := by
    rw [List.dropWhile_append_of_pos hw, List.dropWhile_cons_of_neg not_isDigit_point]
  have hft : fraction.takeWhile Char.isDigit = fraction := (Prod.mk.inj (stretch_all hf)).1
  simp only [Decimal.ofText, ht, hd, hft]

theorem Kind.classifies_ofWord (word : String) : (Kind.ofWord word).Classifies word := by
  unfold Kind.ofWord
  split
  · next k h => exact Keyword.spelling_of_ofSpelling? h
  · next h =>
    intro k hk
    rw [← hk, Keyword.ofSpelling?_spelling] at h
    contradiction

theorem Kind.classifies_iff {kind : Kind} {word : String} :
    kind.Classifies word ↔ kind = .ofWord word := by
  constructor
  · intro h
    unfold Kind.Classifies at h
    split at h
    · next k =>
      rw [← h, Kind.ofWord, Keyword.ofSpelling?_spelling]
    · have hn : Keyword.ofSpelling? word = none := by
        rw [Option.eq_none_iff_forall_ne_some]
        exact fun k hk => h k (Keyword.spelling_of_ofSpelling? hk)
      rw [Kind.ofWord, hn]
    · exact h.elim
  · intro h
    rw [h]
    exact Kind.classifies_ofWord word

theorem Lexeme.denotes {kind : Kind} {text : List Char} (h : Lexeme kind text) :
    Denotes kind text (Literal.ofLexeme? kind text) := by
  have hnone : ∀ k : Kind, k ≠ .string → k ≠ .number →
      Denotes k text (Literal.ofLexeme? k text) := by
    intro k hs hn
    have hl : Literal.ofLexeme? k text = none := by
      unfold Literal.ofLexeme?
      split <;> simp_all
    rw [hl]
    exact .nothing hs hn
  cases h with
  | single hm =>
    have hall : ∀ p ∈ Kind.singles, p.2 ≠ .string ∧ p.2 ≠ .number := by decide
    exact hnone _ (hall _ hm).1 (hall _ hm).2
  | slash => exact hnone _ (by decide) (by decide)
  | plain hm =>
    have hall : ∀ p ∈ Kind.equalSuffixed, p.2.1 ≠ .string ∧ p.2.1 ≠ .number := by decide
    exact hnone _ (hall _ hm).1 (hall _ hm).2
  | withEqual hm =>
    have hall : ∀ p ∈ Kind.equalSuffixed, p.2.2 ≠ .string ∧ p.2.2 ≠ .number := by decide
    exact hnone _ (hall _ hm).1 (hall _ hm).2
  | @whole c more hc hmore =>
    have hw : ∀ d ∈ c :: more, d.isDigit = true := List.forall_mem_cons.2 ⟨hc, hmore⟩
    rw [Literal.ofLexeme?, Decimal.ofText_whole hw]
    exact .whole hw
  | @decimal c d more fraction hc hmore hd hfraction =>
    have hw : ∀ x ∈ c :: more, x.isDigit = true := List.forall_mem_cons.2 ⟨hc, hmore⟩
    have hf : ∀ x ∈ d :: fraction, x.isDigit = true := List.forall_mem_cons.2 ⟨hd, hfraction⟩
    rw [Literal.ofLexeme?, ← List.cons_append, Decimal.ofText_decimal hw hf]
    exact .decimal hw hf
  | word _ _ hk =>
    apply hnone
    · intro he
      rw [he] at hk
      exact hk
    · intro he
      rw [he] at hk
      exact hk
  | @string inside _ =>
    have hl : (('"' :: (inside ++ ['"'])).drop 1).dropLast = inside := by simp
    rw [Literal.ofLexeme?, hl]
    exact .string

/-- What changes texts alone changes the value of no token but a string. -/
theorem Literal.map_ofLexeme? {f : Literal → Literal} (hf : ∀ x, f (.number x) = .number x) {kind : Kind}
    (hk : kind ≠ .string) (lexeme : List Char) :
    (ofLexeme? kind lexeme).map f = ofLexeme? kind lexeme := by
  unfold ofLexeme?
  split
  · exact absurd rfl hk
  · exact congrArg some (hf _)
  · rfl

/-! ### What runs on from a lexeme -/

/-- The text after a lexeme begins with something that would have belonged to it, or that makes a
comment of a slash. A number with no point in it also takes a point that a digit follows. -/
def Kind.runsOn (kind : Kind) (lexeme rest : List Char) : Bool :=
  match kind with
  | .slash => leads (fun c => c == '/' || c == '*') rest
  | .bang | .equal | .less | .greater => leads (· == '=') rest
  | .identifier | .keyword _ => leads isWordPart rest
  | .number =>
    leads Char.isDigit rest ||
      (!lexeme.contains '.' && leads (· == '.') rest && leads Char.isDigit rest.tail)
  | _ => false

theorem Kind.runsOn_nil (kind : Kind) (lexeme : List Char) : kind.runsOn lexeme [] = false := by
  unfold runsOn
  split <;> simp [leads_nil]

theorem Kind.runsOn_single {c : Char} {kind : Kind} (h : (c, kind) ∈ Kind.singles)
    (lexeme rest : List Char) : kind.runsOn lexeme rest = false := by
  have hall : ∀ p ∈ Kind.singles, p.2.runsOn lexeme rest = false := by
    simp [Kind.singles, Kind.runsOn]
  exact hall _ h

theorem Kind.runsOn_plain {c : Char} {plain withEqual : Kind}
    (h : (c, plain, withEqual) ∈ Kind.equalSuffixed) (lexeme rest : List Char) :
    plain.runsOn lexeme rest = leads (· == '=') rest := by
  have hall : ∀ p ∈ Kind.equalSuffixed, p.2.1.runsOn lexeme rest = leads (· == '=') rest := by
    simp [Kind.equalSuffixed, Kind.runsOn]
  exact hall _ h

theorem Kind.runsOn_withEqual {c : Char} {plain withEqual : Kind}
    (h : (c, plain, withEqual) ∈ Kind.equalSuffixed) (lexeme rest : List Char) :
    withEqual.runsOn lexeme rest = false := by
  have hall : ∀ p ∈ Kind.equalSuffixed, p.2.2.runsOn lexeme rest = false := by
    simp [Kind.equalSuffixed, Kind.runsOn]
  exact hall _ h

theorem Kind.runsOn_word {kind : Kind} {word : String} (h : kind.Classifies word)
    (lexeme rest : List Char) : kind.runsOn lexeme rest = leads isWordPart rest := by
  unfold Kind.Classifies at h
  split at h
  · rfl
  · rfl
  · exact h.elim

/-! ### The first cut at a lexeme -/

def Cut.of? : List Char → Option Cut
  | [] => none
  | c :: rest => some (first c rest)

theorem pieces_of_cut {text : List Char} {cut : Cut} (h : Cut.of? text = some cut) :
    pieces text = cut.piece :: pieces cut.rest := by
  cases text with
  | nil => contradiction
  | cons c rest =>
    cases h
    exact pieces_cons c rest

theorem Cut.source_of_of? {text : List Char} {cut : Cut} (h : Cut.of? text = some cut) :
    cut.piece.text ++ cut.rest = text := by
  cases text with
  | nil => contradiction
  | cons c rest =>
    cases h
    exact Cut.first_source c rest

theorem contains_point_whole {whole : List Char} (h : ∀ d ∈ whole, d.isDigit = true) :
    whole.contains '.' = false := by
  rw [← Bool.not_eq_true, List.contains_iff_mem]
  intro hm
  exact not_isDigit_point (h '.' hm)

theorem fractionPart_eq_nil {rest : List Char}
    (h : (leads (· == '.') rest && leads Char.isDigit rest.tail) = false) :
    fractionPart rest = ([], rest) := by
  cases rest with
  | nil => rfl
  | cons c rest =>
    rw [fractionPart, if_neg]
    intro hpoint
    obtain ⟨hc, hdigits⟩ := hpoint
    rw [leads_cons, List.tail_cons, hc, beq_self_eq_true, Bool.true_and] at h
    exact hdigits (by rw [stretch_of_not_leads h])

theorem fractionPart_length_pos {rest : List Char}
    (h : (leads (· == '.') rest && leads Char.isDigit rest.tail) = true) :
    0 < (fractionPart rest).1.length := by
  rw [Bool.and_eq_true] at h
  obtain ⟨c, rest, rfl, hc⟩ := exists_cons_of_leads h.1
  have hs := stretch_length_pos h.2
  rw [List.tail_cons] at hs
  rw [fractionPart, if_pos ⟨eq_of_beq hc, List.ne_nil_of_length_pos hs⟩, List.length_cons]
  omega

theorem fractionPart_point {d : Char} {fraction : List Char} (hd : d.isDigit = true)
    (hf : ∀ x ∈ fraction, x.isDigit = true) (rest : List Char) :
    fractionPart ('.' :: d :: (fraction ++ rest)) =
      ('.' :: d :: (fraction ++ (stretch Char.isDigit rest).1), (stretch Char.isDigit rest).2) := by
  have hall : ∀ x ∈ d :: fraction, x.isDigit = true := List.forall_mem_cons.2 ⟨hd, hf⟩
  have hs : stretch Char.isDigit (d :: (fraction ++ rest)) =
      (d :: (fraction ++ (stretch Char.isDigit rest).1), (stretch Char.isDigit rest).2) :=
    stretch_all_append hall rest
  rw [fractionPart, hs, if_pos ⟨rfl, List.cons_ne_nil _ _⟩]

theorem Cut.number_append {c : Char} {more : List Char} (hmore : ∀ d ∈ more, d.isDigit = true)
    (rest : List Char) :
    number c (more ++ rest) =
      token .number
        (c :: (more ++ ((stretch Char.isDigit rest).1 ++
          (fractionPart (stretch Char.isDigit rest).2).1)))
        (fractionPart (stretch Char.isDigit rest).2).2 := by
  simp only [number, stretch_all_append hmore, List.append_assoc]

theorem Cut.number_decimal {c d : Char} {more fraction : List Char}
    (hmore : ∀ x ∈ more, x.isDigit = true) (hd : d.isDigit = true)
    (hf : ∀ x ∈ fraction, x.isDigit = true) (rest : List Char) :
    number c (more ++ '.' :: d :: (fraction ++ rest)) =
      token .number (c :: (more ++ '.' :: d :: (fraction ++ (stretch Char.isDigit rest).1)))
        (stretch Char.isDigit rest).2 := by
  have hp : leads Char.isDigit ('.' :: d :: (fraction ++ rest)) = false := rfl
  rw [number_append hmore, stretch_of_not_leads hp]
  simp only [List.nil_append, fractionPart_point hd hf]

/-- A lexeme that nothing runs on from is the first piece. -/
theorem Lexeme.cut_eq {kind : Kind} {text rest : List Char} (h : Lexeme kind text)
    (hr : kind.runsOn text rest = false) : Cut.of? (text ++ rest) = some (.token kind text rest) := by
  cases h with
  | single hm => exact congrArg some (Cut.first_single hm rest)
  | slash =>
    show some (Cut.first '/' rest) = _
    rw [Cut.first_slash]
    cases rest with
    | nil => rfl
    | cons d rest =>
      simp only [Kind.runsOn, leads_cons, Bool.or_eq_false_iff, beq_eq_false_iff_ne] at hr
      rw [Cut.slash, if_neg hr.1, if_neg hr.2]
  | @plain c _ _ hm =>
    show some (Cut.first c rest) = _
    rw [Cut.first_equalSuffixed hm]
    rw [Kind.runsOn_plain hm] at hr
    cases rest with
    | nil => rfl
    | cons d rest =>
      rw [leads_cons, beq_eq_false_iff_ne] at hr
      rw [Cut.equalSuffixed, if_neg hr]
  | @withEqual c _ _ hm =>
    show some (Cut.first c ('=' :: rest)) = _
    rw [Cut.first_equalSuffixed hm, Cut.equalSuffixed, if_pos rfl]
  | @whole c more hc hmore =>
    have hp := contains_point_whole (List.forall_mem_cons.2 ⟨hc, hmore⟩)
    rw [Kind.runsOn, hp, Bool.not_false, Bool.true_and, Bool.or_eq_false_iff] at hr
    show some (Cut.first c (more ++ rest)) = _
    rw [Cut.first_digit hc, Cut.number_append hmore, stretch_of_not_leads hr.1]
    simp only [fractionPart_eq_nil hr.2, List.append_nil]
  | @decimal c d more fraction hc hmore hd hf =>
    rw [Kind.runsOn, Bool.or_eq_false_iff] at hr
    have hn := Cut.number_decimal (c := c) hmore hd hf rest
    rw [stretch_of_not_leads hr.1, List.append_nil] at hn
    show some (Cut.first c ((more ++ '.' :: d :: fraction) ++ rest)) = _
    rw [Cut.first_digit hc, List.append_assoc]
    exact congrArg some hn
  | @word c more _ hc hmore hk =>
    rw [Kind.runsOn_word hk] at hr
    rw [Kind.classifies_iff] at hk
    show some (Cut.first c (more ++ rest)) = _
    rw [Cut.first_word hc, Cut.word, stretch_exact hmore hr, hk]
  | @string inside hq =>
    have hs : stretch (· != '"') (inside ++ '"' :: rest) = (inside, '"' :: rest) :=
      stretch_exact (forall_bne_of_notMem hq) rfl
    show some (Cut.first '"' ((inside ++ ['"']) ++ rest)) = _
    rw [Cut.first_quote, Cut.string, List.append_assoc, List.singleton_append, hs]

/-- Of the lexemes that a text begins with, there is one that nothing runs on from. -/
theorem Lexeme.unique {kind kind' : Kind} {text text' rest rest' : List Char}
    (h : Lexeme kind text) (hr : kind.runsOn text rest = false)
    (h' : Lexeme kind' text') (hr' : kind'.runsOn text' rest' = false)
    (htext : text ++ rest = text' ++ rest') : kind = kind' ∧ text = text' := by
  have hcut := h.cut_eq hr
  rw [htext, h'.cut_eq hr'] at hcut
  cases hcut
  exact ⟨rfl, rfl⟩

theorem Lexeme.kind_unique {kind kind' : Kind} {text : List Char} (h : Lexeme kind text)
    (h' : Lexeme kind' text) : kind = kind' :=
  (h.unique (kind.runsOn_nil text) h' (kind'.runsOn_nil text) rfl).1

/-- A lexeme that something runs on from is shorter than the first piece; that piece is a token too,
unless it is a comment that a slash begins. -/
theorem Lexeme.longer_cut {kind : Kind} {text rest : List Char} (h : Lexeme kind text)
    (hr : kind.runsOn text rest = true) :
    ∃ cut, Cut.of? (text ++ rest) = some cut ∧ text.length < cut.piece.text.length ∧
      (kind = .slash ∨ ∃ k, cut.piece.element = .token k) := by
  cases h with
  | single hm =>
    rw [Kind.runsOn_single hm] at hr
    contradiction
  | slash =>
    obtain ⟨d, rest, rfl, hd⟩ := exists_cons_of_leads hr
    refine ⟨Cut.first '/' (d :: rest), rfl, ?_, .inl rfl⟩
    rw [Bool.or_eq_true, beq_iff_eq, beq_iff_eq] at hd
    rw [Cut.first_slash, Cut.slash]
    rcases hd with rfl | rfl
    · simp [Cut.trivia]
    · rw [if_neg (by decide), if_pos rfl]
      split
      · simp [Cut.trivia]
      · simp [Cut.fault]
  | @plain c _ _ hm =>
    rw [Kind.runsOn_plain hm] at hr
    obtain ⟨d, rest, rfl, hd⟩ := exists_cons_of_leads hr
    rw [beq_iff_eq] at hd
    refine ⟨Cut.first c (d :: rest), rfl, ?_⟩
    rw [Cut.first_equalSuffixed hm, Cut.equalSuffixed, if_pos hd]
    exact ⟨by simp [Cut.token], .inr ⟨_, rfl⟩⟩
  | withEqual hm =>
    rw [Kind.runsOn_withEqual hm] at hr
    contradiction
  | @whole c more hc hmore =>
    have hp := contains_point_whole (List.forall_mem_cons.2 ⟨hc, hmore⟩)
    rw [Kind.runsOn, hp, Bool.not_false, Bool.true_and] at hr
    refine ⟨Cut.first c (more ++ rest), rfl, ?_⟩
    rw [Cut.first_digit hc, Cut.number_append hmore]
    refine ⟨?_, .inr ⟨_, rfl⟩⟩
    have hpos : 0 < (stretch Char.isDigit rest).1.length +
        (fractionPart (stretch Char.isDigit rest).2).1.length := by
      cases hd : leads Char.isDigit rest with
      | true =>
        have hs := stretch_length_pos hd
        omega
      | false =>
        rw [hd, Bool.false_or] at hr
        rw [stretch_of_not_leads hd]
        simpa using fractionPart_length_pos hr
    simp only [Cut.token, List.length_cons, List.length_append]
    omega
  | @decimal c d more fraction hc hmore hd hf =>
    have hp : (c :: (more ++ '.' :: d :: fraction)).contains '.' = true := by
      rw [List.contains_iff_mem]
      simp
    rw [Kind.runsOn, hp, Bool.not_true, Bool.false_and, Bool.false_and, Bool.or_false] at hr
    have hs := stretch_length_pos hr
    refine ⟨Cut.first c ((more ++ '.' :: d :: fraction) ++ rest), rfl, ?_⟩
    have hn := Cut.number_decimal (c := c) hmore hd hf rest
    rw [Cut.first_digit hc, List.append_assoc, List.cons_append, List.cons_append, hn]
    refine ⟨?_, .inr ⟨_, rfl⟩⟩
    simp only [Cut.token, List.length_cons, List.length_append]
    omega
  | @word c more _ hc hmore hk =>
    rw [Kind.runsOn_word hk] at hr
    refine ⟨Cut.first c (more ++ rest), rfl, ?_⟩
    rw [Cut.first_word hc, Cut.word, stretch_all_append hmore]
    have hs := stretch_length_pos hr
    refine ⟨?_, .inr ⟨_, rfl⟩⟩
    simp only [Cut.token, List.length_cons, List.length_append]
    omega
  | @string inside _ =>
    have hf : Kind.string.runsOn ('"' :: (inside ++ ['"'])) rest = false := rfl
    rw [hf] at hr
    contradiction

end LoxFrontEnd
