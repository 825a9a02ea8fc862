import LoxFrontEnd.Proofs.Content
import LoxFrontEnd.Proofs.LexemeLead

/-!
# Blanking

A source with blanks in the place of all that is no token. Whatever lies between tokens, trivia or
faults, acts on them as the same number of blanks and newlines would: the blanked source yields the same
tokens at the same places, and nothing to report.
-/

namespace LoxFrontEnd

/-! ### Blanked sources -/

def Token.covers (t : Token) (i : Int) : Bool :=
  decide (t.offset ≤ i ∧ i < t.offset + t.lexeme.toList.length)

def blankFor (c : Char) : Char := if c = '\n' then '\n' else ' '

/-- The source with a blank for each character that lies in no token. -/
def blanked (source : String) : String :=
  String.ofList <| source.toList.mapIdx fun i c =>
    if (scan source).tokens.any (·.covers i) then c else blankFor c

theorem isBlank_blankFor (c : Char) : isBlank (blankFor c) = true := by
  rw [blankFor]
  split <;> rfl

theorem count_newline_blankFor (text : List Char) :
    (text.map blankFor).count '\n' = text.count '\n' := by
  induction text with
  | nil => rfl
  | cons c text ih =>
    rw [List.map_cons, List.count_cons, List.count_cons, ih, blankFor]
    split
    · next h => rw [h]
    · next h => rw [beq_eq_false_iff_ne.2 h]; rfl

theorem Position.after_blankFor (p : Position) (text : List Char) :
    p.after (text.map blankFor) = p.after text := by
  rw [after, after, count_newline_blankFor, List.length_map]

/-! ### Blanked pieces -/

namespace Piece

def dimmed (piece : Piece) : List Char :=
  if piece.isToken then piece.text else piece.text.map blankFor

def dimmedPieces (piece : Piece) : List Piece :=
  if piece.isToken then [piece] else (piece.text.map blankFor).map Piece.blank

theorem getElem?_dimmed (piece : Piece) (i : Nat) :
    piece.dimmed[i]? = piece.text[i]?.map fun c => if piece.isToken then c else blankFor c := by
  rw [dimmed]
  split
  · rw [Option.map_id']
  · rw [List.getElem?_map]

theorem after_dimmed (piece : Piece) (p : Position) : p.after piece.dimmed = p.after piece.text := by
  rw [dimmed]
  split
  · rfl
  · exact Position.after_blankFor p piece.text

theorem text_dimmedPieces (piece : Piece) : piece.dimmedPieces.flatMap Piece.text = piece.dimmed := by
  rw [dimmedPieces, dimmed]
  split
  · simp
  · rw [List.flatMap_map]
    exact List.flatMap_singleton' _

theorem isToken_iff {piece : Piece} :
    piece.isToken = true ↔ ∃ kind, piece.element = .token kind := by
  cases he : piece.element <;> simp [isToken, he]

theorem token?_of_not_isToken {piece : Piece} (h : ¬piece.isToken = true) (p : Position) :
    piece.token? p = none := by
  rw [token?]
  split
  · next kind hk => exact absurd (isToken_iff.2 ⟨kind, hk⟩) h
  · rfl

theorem isFaulty_of_isToken {piece : Piece} (h : piece.isToken = true) : piece.isFaulty = false := by
  obtain ⟨kind, hk⟩ := isToken_iff.1 h
  rw [isFaulty, hk]

end Piece

theorem tokensFrom_blanks (p : Position) (text : List Char) :
    tokensFrom p (text.map Piece.blank) = [] := by
  rw [tokensFrom_eq_nil_iff, List.forall_mem_map]
  exact fun _ _ => rfl

theorem tokensFrom_dimmedPieces (piece : Piece) (p : Position) :
    tokensFrom p piece.dimmedPieces = (piece.token? p).toList := by
  rw [Piece.dimmedPieces]
  split
  · rw [tokensFrom, tokensFrom, List.append_nil]
  · next h => rw [tokensFrom_blanks, Piece.token?_of_not_isToken h, Option.toList_none]

theorem tokensFrom_dimmed (p : Position) (ps : List Piece) :
    tokensFrom p (ps.flatMap Piece.dimmedPieces) = tokensFrom p ps := by
  induction ps generalizing p with
  | nil => rfl
  | cons piece more ih =>
    rw [List.flatMap_cons, tokensFrom_append, tokensFrom_dimmedPieces, Piece.text_dimmedPieces,
      Piece.after_dimmed, ih, tokensFrom]

theorem isFaulty_of_mem_dimmed {piece : Piece} {ps : List Piece}
    (h : piece ∈ ps.flatMap Piece.dimmedPieces) : piece.isFaulty = false := by
  obtain ⟨q, -, hq⟩ := List.mem_flatMap.1 h
  rw [Piece.dimmedPieces] at hq
  split at hq
  · next ht =>
    rw [List.mem_singleton.1 hq]
    exact Piece.isFaulty_of_isToken ht
  · exact isFaulty_of_mem_blanks hq

theorem Position.after_dimmed (p : Position) (ps : List Piece) :
    p.after (ps.flatMap Piece.dimmed) = p.after (ps.flatMap Piece.text) := by
  induction ps generalizing p with
  | nil => rfl
  | cons piece more ih =>
    rw [List.flatMap_cons, List.flatMap_cons, after_append, after_append, Piece.after_dimmed, ih]

/-! ### The spans of the tokens -/

theorem offset_le_of_mem_tokensFrom {p : Position} {ps : List Piece} {t : Token}
    (h : t ∈ tokensFrom p ps) : p.offset ≤ t.offset := by
  induction ps generalizing p with
  | nil => contradiction
  | cons piece more ih =>
    rw [tokensFrom, List.mem_append] at h
    rcases h with h | h
    · rw [Piece.token?] at h
      split at h
      · rw [Option.mem_toList, Option.some.injEq] at h
        subst h
        exact Int.le_refl _
      · contradiction
    · have hle := ih h
      simp only [Position.after] at hle
      omega

theorem any_covers_token? (piece : Piece) (p : Position) (i : Nat) :
    (piece.token? p).toList.any (·.covers (p.offset + i)) =
      (piece.isToken && decide (i < piece.text.length)) := by
  rw [Piece.token?]
  cases he : piece.element with
  | token kind =>
    have hspan : p.offset ≤ p.offset + i := by omega
    simp [Piece.isToken, he, Token.covers, hspan]
  | trivia => simp [Piece.isToken, he]
  | fault fault => simp [Piece.isToken, he]

theorem any_covers_later {piece : Piece} {i : Nat} (h : i < piece.text.length) (p : Position)
    (more : List Piece) :
    (tokensFrom (p.after piece.text) more).any (·.covers (p.offset + i)) = false := by
  rw [List.any_eq_false]
  intro t ht
  have hle := offset_le_of_mem_tokensFrom ht
  simp only [Position.after] at hle
  simp only [Token.covers, decide_eq_true_eq]
  omega

theorem mapIdx_covers (p : Position) (ps : List Piece) :
    ((ps.flatMap Piece.text).mapIdx fun i c =>
      if (tokensFrom p ps).any (·.covers (p.offset + i)) then c else blankFor c) =
    ps.flatMap Piece.dimmed := by
  induction ps generalizing p with
  | nil => rfl
  | cons piece more ih =>
    rw [List.flatMap_cons, List.flatMap_cons, List.mapIdx_append]
    congr 1
    -- here only the token of this piece covers; after it that token no longer does
    · rw [List.mapIdx_eq_iff]
      intro i
      rw [Piece.getElem?_dimmed]
      refine Option.map_congr fun c hc => ?_
      have hlt := (List.getElem?_eq_some_iff.1 hc).1
      rw [tokensFrom, List.any_append, any_covers_token?, any_covers_later hlt, decide_eq_true hlt,
        Bool.and_true, Bool.or_false]
    · rw [← ih (p.after piece.text)]
      rw [List.mapIdx_eq_mapIdx_iff]
      intro i hi
      have hn : ¬i + piece.text.length < piece.text.length := by omega
      have ho : p.offset + ((i + piece.text.length : Nat) : Int) = (p.after piece.text).offset + i := by
        simp only [Position.after]
        omega
      rw [tokensFrom, List.any_append, any_covers_token?, decide_eq_false hn, Bool.and_false,
        Bool.false_or, ho]

/-! ### The pieces of a blanked source -/

theorem fades_dimmed (text : List Char) : Fades text ((pieces text).flatMap Piece.dimmed) := by
  intro i c hc
  rw [← mapIdx_covers {} (pieces text), flatMap_text_pieces, List.getElem?_mapIdx,
    Option.map_eq_some_iff] at hc
  obtain ⟨d, hd, he⟩ := hc
  split at he
  · exact .inr (he ▸ hd)
  · exact .inl (he ▸ isBlank_blankFor d)

theorem pieces_dimmed (text : List Char) :
    pieces ((pieces text).flatMap Piece.dimmed) = (pieces text).flatMap Piece.dimmedPieces := by
  fun_induction pieces text with
  | case1 => exact pieces_nil
  | case2 c rest ih =>
    rw [List.flatMap_cons, List.flatMap_cons, ← ih, Piece.dimmed, Piece.dimmedPieces]
    split
    · next ht =>
      obtain ⟨kind, hk⟩ := Piece.isToken_iff.1 ht
      -- what follows the token has only faded, so nothing new runs on from it
      have hcut : Cut.of? (c :: rest) = some (Cut.first c rest) := rfl
      have hrest : kind.runsOn (Cut.first c rest).piece.text
          ((pieces (Cut.first c rest).rest).flatMap Piece.dimmed) = false := by
        rw [← Bool.not_eq_true]
        intro hr
        have ho := Kind.runsOn_of_breaksOff (fades_dimmed _).breaksOff hr
        rw [Cut.runsOn_of_token hcut hk] at ho
        contradiction
      rw [pieces_of_cut ((Cut.lexeme_of_token hcut hk).cut_eq hrest), Cut.token, ← hk]
      rfl
    · exact pieces_blanks_append (by simp [isBlank_blankFor]) _

theorem toList_blanked (source : String) :
    (blanked source).toList = (pieces source.toList).flatMap Piece.dimmed := by
  have hend : ∀ i : Int, (Token.endOfInput (scan source).finish).covers i = false := by
    intro i
    simp only [Token.covers, Token.endOfInput, String.toList_empty, List.length_nil,
      decide_eq_false_iff_not]
    omega
  have hcovers : ∀ i : Nat, (scan source).tokens.any (·.covers i) =
      (tokensFrom {} (pieces source.toList)).any (·.covers (({} : Position).offset + i)) := by
    intro i
    rw [Scan.tokens, List.any_append, List.any_cons, hend, List.any_nil, Bool.or_false,
      Bool.or_false, Int.zero_add]
    rfl
  rw [blanked, String.toList_ofList, ← mapIdx_covers {}, flatMap_text_pieces]
  simp only [hcovers]

/-- What a scan makes of a source depends on what lies in no token only through its newlines: with a
blank for each other character there are the same tokens at the same places, and no reports. -/
theorem scan_blanked (source : String) :
    scan (blanked source) = { scan source with reports := [] } := by
  have htokens := tokensFrom_dimmed {} (pieces source.toList)
  have hfinish := Position.after_dimmed {} (pieces source.toList)
  have hreports : reportsFrom {} ((pieces source.toList).flatMap Piece.dimmedPieces) = [] :=
    (reportsFrom_eq_nil_iff _ _).2 fun _ => isFaulty_of_mem_dimmed
  rw [scan, toList_blanked, pieces_dimmed, htokens, hreports, hfinish, flatMap_text_pieces]
  rfl

end LoxFrontEnd
