import LoxFrontEnd.Proofs.Restart
import LoxFrontEnd.Proofs.TokenIdentity
import LoxFrontEnd.Session

/-!
# Reserved words

Whether a word is reserved is asked in three ways: of the list of reserved words, of a scan of the word
alone, and of the kind of a token that is written like it. The answers are the same for every text, since
a reserved word is a lexeme of its own kind and a lexeme has one kind.
-/

namespace LoxFrontEnd

/-! ### Spellings -/

theorem Keyword.lexeme_spelling (k : Keyword) : Lexeme (.keyword k) k.spelling.toList := by
  have hall : ∀ k ∈ all,
      leads isWordStart k.spelling.toList = true ∧ k.spelling.toList.tail.all isWordPart = true := by
    decide +kernel
  obtain ⟨hlead, hparts⟩ := hall k k.mem_all
  obtain ⟨c, more, htext, hc⟩ := exists_cons_of_leads hlead
  have hword : String.ofList (c :: more) = k.spelling := by rw [← htext, String.ofList_toList]
  rw [htext, List.tail_cons, List.all_eq_true] at hparts
  rw [htext]
  exact .word hc hparts hword.symm

theorem Lexeme.spelling {k : Keyword} {text : List Char} (h : Lexeme (.keyword k) text) :
    k.spelling.toList = text := by
  cases h with
  | single hm => simp [Kind.singles] at hm
  | plain hm => simp [Kind.equalSuffixed] at hm
  | withEqual hm => simp [Kind.equalSuffixed] at hm
  | word _ _ hk =>
    have hspelling : k.spelling = String.ofList _ := hk
    rw [hspelling, String.toList_ofList]

theorem Kind.Spells.eq_keyword_iff {kind : Kind} {text : List Char} (h : kind.Spells text)
    (k : Keyword) : kind = .keyword k ↔ k.spelling.toList = text := by
  constructor
  · rintro rfl
    rcases h with h | ⟨hend, -⟩
    · exact h.spelling
    · contradiction
  · intro htext
    -- the word is a lexeme of its keyword, and no text has two kinds
    rw [← htext] at h
    exact h.unique (.inl k.lexeme_spelling)

/-! ### Kinds of keywords -/

theorem Kind.isKeyword_iff {kind : Kind} : kind.isKeyword = true ↔ ∃ k, kind = .keyword k := by
  cases kind <;> simp [isKeyword]

theorem kind_eq_keyword_iff {source : String} {t : Token} (h : t ∈ (scan source).tokens)
    (k : Keyword) : t.kind = .keyword k ↔ k.spelling = t.lexeme := by
  rw [(spells_of_mem_tokens h).eq_keyword_iff k, String.toList_inj]

theorem isKeyword_eq_of_mem_tokens {source : String} {t : Token} (h : t ∈ (scan source).tokens) :
    t.isKeyword = isKeyword t.lexeme := by
  rw [Bool.eq_iff_iff, Token.isKeyword, Kind.isKeyword_iff, isKeyword_iff]
  exact exists_congr (kind_eq_keyword_iff h)

/-! ### A word alone -/

theorem scan_of_lexeme {kind : Kind} {w : String} (h : Lexeme kind w.toList) :
    (scan w).reports = [] ∧ ∃ t, (scan w).body = [t] ∧ t.kind = kind ∧ t.lexeme = w := by
  have hcut := h.cut_eq (kind.runsOn_nil w.toList)
  rw [List.append_nil] at hcut
  have hpieces := pieces_of_cut hcut
  rw [Cut.token, pieces_nil] at hpieces
  rw [scan, hpieces]
  exact ⟨rfl, _, rfl, rfl, String.ofList_toList⟩

/-! ### A word in its surroundings -/

/-- A token stands at its place in the source, and nothing after it runs on from it. -/
theorem exists_place_of_mem_body {source : String} {t : Token} (h : t ∈ (scan source).body) :
    ∃ before after, source.toList = before ++ (t.lexeme.toList ++ after) ∧
      t.offset = (before.length : Int) ∧ t.kind.runsOn t.lexeme.toList after = false := by
  obtain ⟨us, vs, hbody⟩ := List.append_of_mem h
  obtain ⟨qs, piece, more, hpieces, -, ht⟩ := exists_piece_of_tokensFrom hbody
  have hplace := (Piece.place_of_token? ht).2
  have hrunsOn := runsOn_of_pieces_append hpieces
  obtain ⟨hkind, hlexeme⟩ := Piece.content_of_token? ht
  refine ⟨qs.flatMap Piece.text, more.flatMap Piece.text, ?_, ?_, ?_⟩
  · rw [hlexeme, ← flatMap_text_pieces source.toList, hpieces, List.flatMap_append, List.flatMap_cons]
  · rw [hplace]
    exact Int.zero_add _
  · rw [Piece.runsOn, hkind] at hrunsOn
    rw [hlexeme]
    exact hrunsOn

/-- Where a reserved word is written, a token that begins there is its keyword exactly when no further
character of a word follows. -/
theorem kind_eq_keyword_iff_of_offset {before after : String} {k : Keyword} {t : Token}
    (h : t ∈ (scan (before ++ k.spelling ++ after)).body) (hoffset : t.offset = before.toList.length) :
    t.kind = .keyword k ↔ leads isWordPart after.toList = false := by
  obtain ⟨first, rest, hsource, hplace, hrest⟩ := exists_place_of_mem_body h
  have hlength : before.toList.length = first.length := Int.ofNat.inj (hoffset.symm.trans hplace)
  rw [String.toList_append, String.toList_append, List.append_assoc] at hsource
  obtain ⟨-, htext⟩ := List.append_inj hsource hlength
  constructor
  · intro hkind
    have hspelling := (kind_eq_keyword_iff (List.mem_append_left _ h) k).1 hkind
    rw [hspelling, List.append_cancel_left_eq] at htext
    rw [hkind, ← htext] at hrest
    exact hrest
  · intro hend
    -- the token and the word begin the same text, and nothing runs on from either
    have hlexeme := (exists_lexeme_of_mem_tokensFrom h).1
    exact (hlexeme.unique hrest k.lexeme_spelling hend htext.symm).1

/-! ### All together -/

/-- A word is reserved exactly when the session says so, and exactly when a scan of it alone reports
nothing and yields one keyword that is all of it. In every scan the tokens that are written like a
reserved word are its keywords, whatever stands around them; where a reserved word is written, a token
that begins there is the keyword unless the word goes on. -/
theorem keyword_query :
    (∀ (w : String) (s : Session),
      (isKeyword w = true ↔ (s.respond (.keyword w)).reply = .answer true) ∧
      (isKeyword w = true ↔
        (scan w).reports = [] ∧ ∃ t last, (scan w).tokens = [t, last] ∧ last.isEndOfInput = true ∧
          t.isEndOfInput = false ∧ t.lexeme = w ∧ t.isKeyword = true)) ∧
    (∀ source : String, ∀ t ∈ (scan source).tokens,
      t.isKeyword = isKeyword t.lexeme ∧
      (∀ k : Keyword, t.kind = .keyword k ↔ k.spelling = t.lexeme) ∧
      (t.kind = .identifier → ∀ k : Keyword, k.spelling ≠ t.lexeme)) ∧
    ∀ (before after : String) (k : Keyword), ∀ t ∈ (scan (before ++ k.spelling ++ after)).body,
      t.offset = before.toList.length →
        (t.kind = .keyword k ↔ leads isWordPart after.toList = false) := by
  refine ⟨fun w s => ⟨?session, ?alone⟩, fun source t ht => ⟨isKeyword_eq_of_mem_tokens ht,
    kind_eq_keyword_iff ht, ?identifier⟩, fun before after k t ht => kind_eq_keyword_iff_of_offset ht⟩
  case session =>
    rw [Session.respond, Session.Reply.answer.injEq]
  case alone =>
    constructor
    · intro hw
      obtain ⟨k, rfl⟩ := isKeyword_iff.1 hw
      obtain ⟨hreports, t, hbody, hkind, hlexeme⟩ := scan_of_lexeme k.lexeme_spelling
      refine ⟨hreports, t, .endOfInput (scan k.spelling).finish, ?_, rfl, ?_, hlexeme, ?_⟩
      · rw [Scan.tokens, hbody, List.singleton_append]
      · rw [Token.isEndOfInput, hkind]
        rfl
      · rw [Token.isKeyword, hkind]
        rfl
    · rintro ⟨-, t, last, htokens, -, -, rfl, ht⟩
      rw [← isKeyword_eq_of_mem_tokens (htokens ▸ List.mem_cons_self), ht]
  case identifier =>
    intro hkind k hspelling
    rw [(kind_eq_keyword_iff ht k).2 hspelling] at hkind
    contradiction

/-- The word is a keyword after a digit and before a null character; with a letter before it or a digit
after it, it is part of another word. -/
theorem keyword_query_surrounded :
    (∃ t ∈ (scan "1for\x00xfor for9").tokens,
      t.offset = 1 ∧ t.isKeyword = true ∧ t.kind = .keyword .forWord) ∧
    (∃ t ∈ (scan "1for\x00xfor for9").tokens,
      t.offset = 5 ∧ t.lexeme = "xfor" ∧ t.isKeyword = false) ∧
    (∃ t ∈ (scan ("1for\x00xfor " ++ Keyword.forWord.spelling ++ "9")).body,
      t.offset = 10 ∧ t.kind ≠ .keyword .forWord) ∧
    ∃ t last, (scan "for").tokens = [t, last] ∧ t.lexeme = "for" ∧ t.isKeyword = true := by
  have hword : ⟨.keyword .forWord, "for", none, 1, 1⟩ ∈ (scan "1for\x00xfor for9").tokens := by
    decide +kernel
  have hlonger : ⟨.identifier, "xfor", none, 1, 5⟩ ∈ (scan "1for\x00xfor for9").tokens := by
    decide +kernel
  have hdigit : ⟨.identifier, "for9", none, 1, 10⟩ ∈
      (scan ("1for\x00xfor " ++ Keyword.forWord.spelling ++ "9")).body := by
    decide +kernel
  obtain ⟨halone, htokens, hplaces⟩ := keyword_query
  refine ⟨⟨_, hword, rfl, ?_, ?_⟩, ⟨_, hlonger, rfl, rfl, ?_⟩, ⟨_, hdigit, rfl, ?_⟩, ?_⟩
  · rw [(htokens _ _ hword).1]
    decide
  · exact ((htokens _ _ hword).2.1 .forWord).2 rfl
  · rw [(htokens _ _ hlonger).1]
    decide
  · intro hkind
    exact absurd ((hplaces _ _ _ _ hdigit (by decide)).1 hkind) (by decide)
  · have hfor := (halone "for" ⟨"", "", {}, [], []⟩).2.1 (by decide)
    obtain ⟨-, t, last, htwo, -, -, hlexeme, hkeyword⟩ := hfor
    exact ⟨t, last, htwo, hlexeme, hkeyword⟩

end LoxFrontEnd
