import LoxFrontEnd.Proofs.Comment
import LoxFrontEnd.Proofs.Lexeme

/-!
# Longest match

The elements of the language as a grammar, and the division of a text that takes the longest element
each time. Every text has exactly one such division, and it is the list of its pieces.
-/

namespace LoxFrontEnd

/-! ### Elements -/

/-- A text is an element where `rest` comes after it. A string or a block comment may stay open only at
the end, and a block comment only if no closed one begins there. -/
inductive ElementAt : Element → List Char → List Char → Prop
  | token {kind : Kind} {text rest : List Char} :
      Lexeme kind text → ElementAt (.token kind) text rest
  | blank {c : Char} {rest : List Char} : isBlank c = true → ElementAt .trivia [c] rest
  | lineComment {inside rest : List Char} :
      '\n' ∉ inside → ElementAt .trivia ('/' :: '/' :: inside) rest
  | blockComment {inside rest : List Char} :
      CommentTail inside → ElementAt .trivia ('/' :: '*' :: inside) rest
  | openString {inside : List Char} :
      '"' ∉ inside → ElementAt (.fault .unterminatedString) ('"' :: inside) []
  | openComment {inside : List Char} :
      (∀ tail after, tail ++ after = inside → ¬CommentTail tail) →
      ElementAt (.fault .unterminatedComment) ('/' :: '*' :: inside) []

/-- The first cut takes the longest element; a character that begins none stands alone. -/
inductive LongestCut : List Char → Cut → Prop
  | element {e : Element} {text rest : List Char} :
      ElementAt e text rest →
      (∀ e' text' rest', ElementAt e' text' rest' → text' ++ rest' = text ++ rest →
        text'.length ≤ text.length) →
      LongestCut (text ++ rest) ⟨⟨e, text⟩, rest⟩
  | bad {c : Char} {rest : List Char} :
      (∀ e text rest', ElementAt e text rest' → text ++ rest' ≠ c :: rest) →
      LongestCut (c :: rest) ⟨⟨.fault (.unexpected c), [c]⟩, rest⟩

/-- A division of a text by longest match. -/
inductive Segmentation : List Char → List Piece → Prop
  | nil : Segmentation [] []
  | cons {text : List Char} {cut : Cut} {more : List Piece} :
      LongestCut text cut → Segmentation cut.rest more → Segmentation text (cut.piece :: more)

theorem Lexeme.text_ne_nil {kind : Kind} {text : List Char} (h : Lexeme kind text) : text ≠ [] := by
  cases h <;> exact List.cons_ne_nil _ _

theorem ElementAt.text_ne_nil {e : Element} {text rest : List Char} (h : ElementAt e text rest) :
    text ≠ [] := by
  cases h with
  | token hl => exact hl.text_ne_nil
  | _ => exact List.cons_ne_nil _ _

theorem ElementAt.ne_unexpected {e : Element} {text rest : List Char} (h : ElementAt e text rest)
    (c : Char) : e ≠ .fault (.unexpected c) := by
  cases h <;> simp

/-! ### What runs on from a piece -/

/-- The text after a piece begins with something that would have belonged to the piece. A line comment
takes all but a newline, and what is left open takes anything. -/
def Piece.runsOn (piece : Piece) (rest : List Char) : Bool :=
  match piece.element with
  | .token kind => kind.runsOn piece.text rest
  | .trivia => ['/', '/'].isPrefixOf piece.text && leads (· != '\n') rest
  | .fault (.unexpected _) => false
  | .fault _ => !rest.isEmpty

/-- An element is cut off wherever nothing runs on from it. -/
theorem ElementAt.cut_eq {e : Element} {text rest other : List Char} (h : ElementAt e text rest)
    (hr : Piece.runsOn ⟨e, text⟩ other = false) :
    Cut.of? (text ++ other) = some ⟨⟨e, text⟩, other⟩ := by
  cases h with
  | token hl => exact hl.cut_eq hr
  | blank hb => exact congrArg some (Cut.first_blank hb other)
  | @lineComment inside _ hn =>
    have hs : stretch (· != '\n') (inside ++ other) = (inside, other) :=
      stretch_exact (forall_bne_of_notMem hn) hr
    show some (Cut.first '/' ('/' :: (inside ++ other))) = _
    rw [Cut.first_slash, Cut.slash, if_pos rfl, hs]
    rfl
  | @blockComment inside _ hc =>
    show some (Cut.first '/' ('*' :: (inside ++ other))) = _
    rw [Cut.first_slash, Cut.slash, if_neg (by decide), if_pos rfl,
      closeComment?_eq_some_iff.2 ⟨rfl, hc⟩]
    rfl
  | @openString inside hq =>
    obtain rfl : other = [] := by simpa [Piece.runsOn] using hr
    show some (Cut.first '"' (inside ++ [])) = _
    rw [Cut.first_quote, Cut.string, List.append_nil, stretch_all (forall_bne_of_notMem hq)]
    rfl
  | @openComment inside hn =>
    obtain rfl : other = [] := by simpa [Piece.runsOn] using hr
    show some (Cut.first '/' ('*' :: (inside ++ []))) = _
    rw [Cut.first_slash, Cut.slash, if_neg (by decide), if_pos rfl, List.append_nil,
      closeComment?_eq_none_iff.2 hn]
    rfl

/-! ### The first cut is the longest -/

/-- An element that something runs on from is shorter than the first piece. -/
theorem ElementAt.longer_cut {e : Element} {text rest : List Char} (h : ElementAt e text rest)
    (hr : Piece.runsOn ⟨e, text⟩ rest = true) :
    ∃ cut, Cut.of? (text ++ rest) = some cut ∧ text.length < cut.piece.text.length := by
  cases h with
  | token hl =>
    obtain ⟨cut, hcut, hlt, -⟩ := hl.longer_cut hr
    exact ⟨cut, hcut, hlt⟩
  | blank _ => simp [Piece.runsOn] at hr
  | @lineComment inside _ hn =>
    have hs := stretch_length_pos (show leads (· != '\n') rest = true from hr)
    refine ⟨Cut.first '/' ('/' :: (inside ++ rest)), rfl, ?_⟩
    rw [Cut.first_slash, Cut.slash, if_pos rfl, stretch_all_append (forall_bne_of_notMem hn)]
    simp only [Cut.trivia, List.length_cons, List.length_append]
    omega
  | blockComment _ => simp [Piece.runsOn] at hr
  | openString _ => contradiction
  | openComment _ => contradiction

/-- An element is the first piece, or it is shorter than the first piece. -/
theorem ElementAt.cut_or_longer {e : Element} {text rest : List Char} (h : ElementAt e text rest) :
    ∃ cut, Cut.of? (text ++ rest) = some cut ∧
      (cut = ⟨⟨e, text⟩, rest⟩ ∨ text.length < cut.piece.text.length) := by
  cases hr : Piece.runsOn ⟨e, text⟩ rest with
  | false => exact ⟨_, h.cut_eq hr, .inl rfl⟩
  | true =>
    obtain ⟨cut, hcut, hlt⟩ := h.longer_cut hr
    exact ⟨cut, hcut, .inr hlt⟩

theorem elementAt_slash (rest : List Char) :
    ElementAt (Cut.slash '/' rest).piece.element (Cut.slash '/' rest).piece.text
      (Cut.slash '/' rest).rest := by
  cases rest with
  | nil => exact .token .slash
  | cons d rest =>
    rw [Cut.slash]
    split_ifs with hline hblock
    · subst hline
      exact .lineComment (notMem_stretch_bne '\n' rest)
    · subst hblock
      cases hc : closeComment? 0 rest with
      | some r =>
        obtain ⟨inside, after⟩ := r
        exact .blockComment (closeComment?_eq_some_iff.1 hc).2
      | none => exact .openComment (closeComment?_eq_none_iff.1 hc)
    · exact .token .slash

theorem elementAt_string (rest : List Char) :
    ElementAt (Cut.string '"' rest).piece.element (Cut.string '"' rest).piece.text
      (Cut.string '"' rest).rest := by
  have hq := notMem_stretch_bne '"' rest
  have hl := leads_stretch (· != '"') rest
  rw [Cut.string]
  split
  · next inside hs =>
    rw [hs] at hq
    exact .openString hq
  · next inside closing after hs =>
    rw [hs] at hq hl
    rw [leads_cons, bne_eq_false_iff_eq] at hl
    subst hl
    exact .token (.string hq)

theorem elementAt_number {c : Char} (h : c.isDigit = true) (rest : List Char) :
    ElementAt (Cut.number c rest).piece.element (Cut.number c rest).piece.text
      (Cut.number c rest).rest := by
  have hwhole : ∀ d ∈ (stretch Char.isDigit rest).1, d.isDigit = true := fun d => of_mem_stretch
  simp only [Cut.number, Cut.token]
  cases hr : (stretch Char.isDigit rest).2 with
  | nil =>
    rw [fractionPart, List.append_nil]
    exact .token (.whole h hwhole)
  | cons p after =>
    rw [fractionPart]
    split_ifs with hp
    · obtain ⟨rfl, hne⟩ := hp
      cases hf : (stretch Char.isDigit after).1 with
      | nil => exact absurd hf hne
      | cons d fraction =>
        have hall : ∀ x ∈ d :: fraction, x.isDigit = true := by
          rw [← hf]
          exact fun x => of_mem_stretch
        exact .token (.decimal h hwhole (hall d (by simp)) fun x hx => hall x (by simp [hx]))
    · rw [List.append_nil]
      exact .token (.whole h hwhole)

/-- The first piece is an element, unless its first character begins nothing. -/
theorem elementAt_of_cut {text : List Char} {cut : Cut} (h : Cut.of? text = some cut) :
    ElementAt cut.piece.element cut.piece.text cut.rest ∨
      ∃ c, cut.piece = ⟨.fault (.unexpected c), [c]⟩ ∧ Lead.of c = .nothing := by
  cases text with
  | nil => contradiction
  | cons c rest =>
    cases h
    have hfits := Lead.fits_of c
    cases hc : Lead.of c with
    | single kind =>
      rw [hc] at hfits
      rw [Cut.first_single hfits]
      exact .inl (.token (.single hfits))
    | equalSuffixed plain withEqual =>
      rw [hc] at hfits
      rw [Cut.first_equalSuffixed hfits]
      refine .inl ?_
      cases rest with
      | nil => exact .token (.plain hfits)
      | cons d rest =>
        rw [Cut.equalSuffixed]
        split_ifs with hd
        · subst hd
          exact .token (.withEqual hfits)
        · exact .token (.plain hfits)
    | slash =>
      rw [hc] at hfits
      cases hfits
      rw [Cut.first_slash]
      exact .inl (elementAt_slash rest)
    | blank =>
      rw [hc] at hfits
      rw [Cut.first_blank hfits]
      exact .inl (.blank hfits)
    | quote =>
      rw [hc] at hfits
      cases hfits
      rw [Cut.first_quote]
      exact .inl (elementAt_string rest)
    | digit =>
      rw [hc] at hfits
      rw [Cut.first_digit hfits]
      exact .inl (elementAt_number hfits rest)
    | word =>
      rw [hc] at hfits
      rw [Cut.first_word hfits]
      exact .inl (.token (.word hfits (fun d => of_mem_stretch) (Kind.classifies_ofWord _)))
    | nothing =>
      rw [Cut.first_nothing hc]
      exact .inr ⟨c, rfl, hc⟩

/-! ### The division into pieces -/

theorem ElementAt.eq_or_longer {e : Element} {text rest : List Char} {cut : Cut}
    (h : ElementAt e text rest) (hcut : Cut.of? (text ++ rest) = some cut) :
    cut = ⟨⟨e, text⟩, rest⟩ ∨ text.length < cut.piece.text.length := by
  obtain ⟨own, hown, hcase⟩ := h.cut_or_longer
  rw [hcut, Option.some.injEq] at hown
  rw [hown]
  exact hcase

/-- Where an element begins, no bad character is cut off. -/
theorem ElementAt.piece_ne_unexpected {e : Element} {text rest : List Char} {cut : Cut}
    (h : ElementAt e text rest) (hcut : Cut.of? (text ++ rest) = some cut) (c : Char) :
    cut.piece ≠ ⟨.fault (.unexpected c), [c]⟩ := by
  intro hpiece
  cases h.eq_or_longer hcut with
  | inl heq =>
    rw [heq] at hpiece
    exact h.ne_unexpected c (congrArg Piece.element hpiece)
  | inr hlt =>
    have hpos := List.length_pos_iff.2 h.text_ne_nil
    rw [hpiece, List.length_singleton] at hlt
    omega

theorem LongestCut.of?_eq {text : List Char} {cut : Cut} (h : LongestCut text cut) :
    Cut.of? text = some cut := by
  cases h with
  | @element e text rest he hlongest =>
    obtain ⟨own, hown, hcase⟩ := he.cut_or_longer
    cases hcase with
    | inl heq =>
      rw [← heq]
      exact hown
    | inr hlt =>
      rcases elementAt_of_cut hown with hel | ⟨c, hpiece, -⟩
      · have hle := hlongest _ _ _ hel (Cut.source_of_of? hown)
        omega
      · exact absurd hpiece (he.piece_ne_unexpected hown c)
  | @bad c rest hnone =>
    have hcut : Cut.of? (c :: rest) = some (Cut.first c rest) := rfl
    have hsource := Cut.source_of_of? hcut
    rcases elementAt_of_cut hcut with hel | ⟨d, hpiece, -⟩
    · exact absurd hsource (hnone _ _ _ hel)
    · rw [hpiece] at hsource
      obtain ⟨rfl, hrest⟩ := List.cons.inj hsource
      rw [hcut, Option.some.injEq, ← hpiece]
      exact congrArg (Cut.mk (Cut.first d rest).piece) hrest

theorem longestCut_of_cut {text : List Char} {cut : Cut} (hcut : Cut.of? text = some cut) :
    LongestCut text cut := by
  have hsource := Cut.source_of_of? hcut
  rcases elementAt_of_cut hcut with hel | ⟨c, hpiece, -⟩
  · rw [← hsource]
    apply LongestCut.element hel
    intro e other rest he hs
    rw [← hsource, ← hs] at hcut
    cases he.eq_or_longer hcut with
    | inl heq =>
      subst heq
      exact Nat.le_refl _
    | inr hlt => exact Nat.le_of_lt hlt
  · obtain ⟨piece, rest⟩ := cut
    subst hpiece
    rw [← hsource]
    apply LongestCut.bad
    intro e other rest' he hs
    have hother : other ++ rest' = text := hs.trans hsource
    rw [← hother] at hcut
    exact he.piece_ne_unexpected hcut c rfl

/-- Every text has exactly one division by longest match: its pieces. -/
theorem segmentation_iff {text : List Char} {ps : List Piece} :
    Segmentation text ps ↔ ps = pieces text := by
  constructor
  · intro h
    induction h with
    | nil => exact pieces_nil.symm
    | cons hcut _ ih => rw [pieces_of_cut hcut.of?_eq, ih]
  · intro h
    subst h
    fun_induction pieces text with
    | case1 => exact .nil
    | case2 c rest ih => exact .cons (longestCut_of_cut rfl) ih

/-! ### Pieces of a text -/

theorem exists_cut_of_mem_pieces {text : List Char} {piece : Piece} (h : piece ∈ pieces text) :
    ∃ tail cut, Cut.of? tail = some cut ∧ cut.piece = piece := by
  fun_induction pieces text with
  | case1 => cases h
  | case2 c rest ih =>
    rcases List.mem_cons.1 h with rfl | h
    · exact ⟨c :: rest, Cut.first c rest, rfl, rfl⟩
    · exact ih h

theorem Cut.lexeme_of_token {text : List Char} {cut : Cut} {kind : Kind}
    (h : Cut.of? text = some cut) (hk : cut.piece.element = .token kind) :
    Lexeme kind cut.piece.text := by
  rcases elementAt_of_cut h with hel | ⟨c, hc, -⟩
  · rw [hk] at hel
    cases hel with
    | token hl => exact hl
  · rw [hc] at hk
    cases hk

/-- Nothing runs on from the first piece: it took all that it could. -/
theorem Cut.runsOn_rest {text : List Char} {cut : Cut} (h : Cut.of? text = some cut) :
    cut.piece.runsOn cut.rest = false := by
  rcases elementAt_of_cut h with hel | ⟨c, hc, -⟩
  · rw [← Bool.not_eq_true]
    intro hr
    obtain ⟨longer, hlonger, hlt⟩ := hel.longer_cut hr
    rw [Cut.source_of_of? h, h] at hlonger
    cases hlonger
    exact absurd hlt (Nat.lt_irrefl _)
  · rw [hc]
    rfl

theorem Cut.runsOn_of_token {text : List Char} {cut : Cut} {kind : Kind}
    (h : Cut.of? text = some cut) (hk : cut.piece.element = .token kind) :
    kind.runsOn cut.piece.text cut.rest = false := by
  have hr := Cut.runsOn_rest h
  rw [Piece.runsOn, hk] at hr
  exact hr

theorem Cut.text_of_unexpected {text : List Char} {cut : Cut} {c : Char}
    (h : Cut.of? text = some cut) (he : cut.piece.element = .fault (.unexpected c)) :
    cut.piece.text = [c] ∧ Lead.of c = .nothing := by
  rcases elementAt_of_cut h with hel | ⟨d, hd, hn⟩
  · exact absurd he (hel.ne_unexpected c)
  · rw [hd] at he ⊢
    cases he
    exact ⟨rfl, hn⟩

theorem text_of_mem_pieces_unexpected {text : List Char} {piece : Piece} {c : Char}
    (hp : piece ∈ pieces text) (he : piece.element = .fault (.unexpected c)) :
    piece.text = [c] ∧ Lead.of c = .nothing := by
  obtain ⟨tail, cut, hcut, rfl⟩ := exists_cut_of_mem_pieces hp
  exact Cut.text_of_unexpected hcut he

theorem Cut.rest_of_unterminated {text : List Char} {cut : Cut} {fault : LexicalFault}
    (h : Cut.of? text = some cut) (he : cut.piece.element = .fault fault)
    (hf : ∀ c, fault ≠ .unexpected c) : cut.rest = [] := by
  rcases elementAt_of_cut h with hel | ⟨c, hc, -⟩
  · rw [he] at hel
    generalize cut.piece.text = text at hel
    generalize cut.rest = rest at hel ⊢
    cases hel with
    | openString _ => rfl
    | openComment _ => rfl
  · rw [hc] at he
    cases he
    exact absurd rfl (hf c)

theorem lexeme_of_mem_pieces {text : List Char} {piece : Piece} {kind : Kind}
    (hp : piece ∈ pieces text) (hk : piece.element = .token kind) : Lexeme kind piece.text := by
  obtain ⟨tail, cut, hcut, rfl⟩ := exists_cut_of_mem_pieces hp
  exact Cut.lexeme_of_token hcut hk

end LoxFrontEnd
