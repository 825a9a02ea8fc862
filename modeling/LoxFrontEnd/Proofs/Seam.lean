import LoxFrontEnd.Proofs.LexemeLead
import LoxFrontEnd.Proofs.LongestMatch
import Mathlib.Data.List.Infix

/-!
# Seams

Where a piece ends and other text begins. The first piece of a text is cut off again in front of any
text that does not run on from it. So a text can be divided between two of its pieces, and each part
keeps its own; and more text after it changes no piece that two characters follow.
-/

namespace LoxFrontEnd

/-- The first piece of a text is cut off again where nothing runs on from it. -/
theorem Cut.again {text other : List Char} {cut : Cut} (h : Cut.of? text = some cut)
    (hr : cut.piece.runsOn other = false) :
    Cut.of? (cut.piece.text ++ other) = some ⟨cut.piece, other⟩ := by
  rcases elementAt_of_cut h with hel | ⟨c, hc, hn⟩
  · exact hel.cut_eq hr
  · rw [hc]
    exact congrArg some (Cut.first_nothing hn other)

theorem pieces_again {text other : List Char} {cut : Cut} (h : Cut.of? text = some cut)
    (hr : cut.piece.runsOn other = false) :
    pieces (cut.piece.text ++ other) = cut.piece :: pieces other :=
  pieces_of_cut (Cut.again h hr)

/-! ### Less text -/

theorem leads_of_isPrefix {p : Char → Bool} {text other : List Char} (h : other <+: text)
    (hl : leads p other = true) : leads p text = true := by
  obtain ⟨c, more, rfl, hc⟩ := exists_cons_of_leads hl
  obtain ⟨rest, rfl⟩ := h
  exact hc

theorem Piece.runsOn_of_isPrefix {piece : Piece} {rest other : List Char} (h : other <+: rest)
    (hr : piece.runsOn other = true) : piece.runsOn rest = true := by
  unfold Piece.runsOn at hr ⊢
  split at hr
  · exact Kind.runsOn_of_breaksOff (breaksOff_of_isPrefix h) hr
  · rw [Bool.and_eq_true] at hr ⊢
    exact ⟨hr.1, leads_of_isPrefix h hr.2⟩
  · contradiction
  · obtain ⟨more, rfl⟩ := h
    simp_all

/-- A text divided between two of its pieces: each part has the pieces that it had in the whole. -/
theorem pieces_of_append {text : List Char} {before after : List Piece}
    (h : pieces text = before ++ after) :
    pieces (before.flatMap Piece.text) = before ∧ pieces (after.flatMap Piece.text) = after := by
  fun_induction pieces text generalizing before with
  | case1 =>
    obtain ⟨rfl, rfl⟩ := List.append_eq_nil_iff.1 h.symm
    exact ⟨pieces_nil, pieces_nil⟩
  | case2 c rest ih =>
    cases before with
    | nil =>
      rw [List.nil_append] at h
      rw [← h, ← pieces_cons, flatMap_text_pieces]
      exact ⟨pieces_nil, rfl⟩
    | cons piece more =>
      rw [List.cons_append] at h
      obtain ⟨rfl, hmore⟩ := List.cons.inj h
      obtain ⟨hbefore, hafter⟩ := ih hmore
      have hcut : Cut.of? (c :: rest) = some (Cut.first c rest) := rfl
      have hrest : more.flatMap Piece.text <+: (Cut.first c rest).rest := by
        rw [← flatMap_text_pieces (Cut.first c rest).rest, hmore, List.flatMap_append]
        exact List.prefix_append _ _
      -- with less text after it, nothing runs on from the first piece that did not before
      have hseam : (Cut.first c rest).piece.runsOn (more.flatMap Piece.text) = false := by
        rw [← Bool.not_eq_true]
        intro hr
        have hlonger := Piece.runsOn_of_isPrefix hrest hr
        rw [Cut.runsOn_rest hcut] at hlonger
        contradiction
      rw [List.flatMap_cons, pieces_again hcut hseam, hbefore]
      exact ⟨rfl, hafter⟩

theorem runsOn_of_pieces_append {text : List Char} {before after : List Piece} {piece : Piece}
    (h : pieces text = before ++ piece :: after) :
    piece.runsOn (after.flatMap Piece.text) = false := by
  have hpieces := (pieces_of_append h).2
  obtain ⟨c, rest, htext⟩ := List.exists_cons_of_ne_nil (l := (piece :: after).flatMap Piece.text) (by
    intro hnil
    rw [hnil, pieces_nil] at hpieces
    contradiction)
  have hcut : Cut.of? (c :: rest) = some (Cut.first c rest) := rfl
  rw [htext, pieces_cons, List.cons.injEq] at hpieces
  obtain ⟨hpiece, hafter⟩ := hpieces
  rw [← hpiece, ← hafter, flatMap_text_pieces]
  exact Cut.runsOn_rest hcut

/-! ### Blanks -/

/-- A blank after a text runs on from none of its pieces, unless from the last one. -/
theorem Piece.runsOn_append_blank {piece : Piece} {rest more : List Char} {c : Char}
    (hc : isBlank c = true) (h : piece.runsOn rest = false)
    (hend : rest = [] → piece.runsOn (c :: more) = false) :
    piece.runsOn (rest ++ c :: more) = false := by
  cases rest with
  | nil => exact hend rfl
  | cons d rest =>
    rw [← Bool.not_eq_true] at h ⊢
    intro hr
    apply h
    unfold Piece.runsOn at hr ⊢
    split at hr
    · exact Kind.runsOn_of_breaksOff (breaksOff_append_blank hc (d :: rest) more) hr
    · exact hr
    · contradiction
    · rfl

/-- A text with a blank and more after it: both parts keep their pieces, if the blank does not run on
from the last piece of the first. -/
theorem pieces_append_blank {text more : List Char} {c : Char} (hc : isBlank c = true)
    (h : ∀ piece, (pieces text).getLast? = some piece → piece.runsOn (c :: more) = false) :
    pieces (text ++ c :: more) = pieces text ++ pieces (c :: more) := by
  fun_induction pieces text with
  | case1 => rfl
  | case2 d rest ih =>
    have hcut : Cut.of? (d :: rest) = some (Cut.first d rest) := rfl
    have hseam : (Cut.first d rest).piece.runsOn ((Cut.first d rest).rest ++ c :: more) = false := by
      refine Piece.runsOn_append_blank hc (Cut.runsOn_rest hcut) fun hend => h _ ?_
      rw [hend, pieces_nil]
      rfl
    have hmore := ih fun piece hlast => h piece (by rw [List.getLast?_cons, hlast]; rfl)
    rw [← Cut.source_of_of? hcut, List.append_assoc, pieces_again hcut hseam, hmore]
    rfl

/-! ### More text -/

/-- A number looks at two characters after it, if the first is a point; all else looks at one. -/
theorem Kind.runsOn_append {rest : List Char} (hnil : rest ≠ []) (hpoint : rest ≠ ['.'])
    (kind : Kind) (lexeme more : List Char) :
    kind.runsOn lexeme (rest ++ more) = kind.runsOn lexeme rest := by
  match rest with
  | [c] =>
    have hc : (c == '.') = false := beq_eq_false_iff_ne.2 fun he => hpoint (he ▸ rfl)
    unfold Kind.runsOn
    split <;> simp [leads_cons, hc]
  | c :: d :: rest => rfl

theorem Piece.runsOn_append {rest : List Char} (hnil : rest ≠ []) (hpoint : rest ≠ ['.'])
    (piece : Piece) (more : List Char) : piece.runsOn (rest ++ more) = piece.runsOn rest := by
  unfold Piece.runsOn
  split
  · exact Kind.runsOn_append hnil hpoint _ _ more
  · obtain ⟨c, rest, rfl⟩ := List.exists_cons_of_ne_nil hnil
    rfl
  · rfl
  · obtain ⟨c, rest, rfl⟩ := List.exists_cons_of_ne_nil hnil
    rfl

theorem cons_prefix_pieces_iff {text : List Char} {piece : Piece} {ps : List Piece} :
    piece :: ps <+: pieces text ↔ ∃ rest, Cut.of? text = some ⟨piece, rest⟩ ∧ ps <+: pieces rest := by
  constructor
  · intro h
    cases text with
    | nil => simp [pieces_nil] at h
    | cons c rest =>
      rw [pieces_cons, List.cons_prefix_cons] at h
      obtain ⟨rfl, hps⟩ := h
      exact ⟨(Cut.first c rest).rest, rfl, hps⟩
  · rintro ⟨rest, hcut, hps⟩
    rw [pieces_of_cut hcut]
    exact List.cons_prefix_cons.2 ⟨rfl, hps⟩

theorem Cut.of?_append_iff {piece : Piece} {rest more : List Char} (h : 2 ≤ rest.length) :
    Cut.of? (piece.text ++ rest) = some ⟨piece, rest⟩ ↔
      Cut.of? (piece.text ++ (rest ++ more)) = some ⟨piece, rest ++ more⟩ := by
  have hnil : rest ≠ [] := by
    rintro rfl
    simp at h
  have hpoint : rest ≠ ['.'] := by
    rintro rfl
    simp at h
  have hseam := Piece.runsOn_append hnil hpoint piece more
  constructor
  · intro hcut
    exact Cut.again hcut (hseam.trans (Cut.runsOn_rest hcut))
  · intro hcut
    exact Cut.again hcut (hseam.symm.trans (Cut.runsOn_rest hcut))

/-- The pieces that end two characters before the end of a text are the same with more text after it. -/
theorem prefix_pieces_append_iff {ps : List Piece} {text more : List Char}
    (h : (ps.flatMap Piece.text).length + 2 ≤ text.length) :
    ps <+: pieces text ↔ ps <+: pieces (text ++ more) := by
  induction ps generalizing text with
  | nil => exact iff_of_true List.nil_prefix List.nil_prefix
  | cons piece ps ih =>
    rw [List.flatMap_cons, List.length_append] at h
    rw [cons_prefix_pieces_iff, cons_prefix_pieces_iff]
    constructor
    · rintro ⟨rest, hcut, hps⟩
      obtain rfl : piece.text ++ rest = text := Cut.source_of_of? hcut
      rw [List.length_append] at h
      rw [List.append_assoc]
      exact ⟨rest ++ more, (Cut.of?_append_iff (by omega)).1 hcut, (ih (by omega)).1 hps⟩
    · rintro ⟨longer, hcut, hps⟩
      have hsource : piece.text ++ longer = text ++ more := Cut.source_of_of? hcut
      have hprefix : piece.text <+: text :=
        List.prefix_of_prefix_length_le ⟨longer, hsource⟩ (List.prefix_append text more) (by omega)
      obtain ⟨rest, rfl⟩ := hprefix
      rw [List.append_assoc, List.append_cancel_left_eq] at hsource
      subst hsource
      rw [List.length_append] at h
      rw [List.append_assoc] at hcut
      exact ⟨rest, (Cut.of?_append_iff (by omega)).2 hcut, (ih (by omega)).2 hps⟩

end LoxFrontEnd
