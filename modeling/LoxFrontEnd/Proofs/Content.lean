import LoxFrontEnd.Proofs.Segmentation

/-!
# Contents

What a scan yields apart from places: kinds, lexemes and values. They are read off the pieces one by
one, so a text that keeps its pieces keeps its contents, and blanks before a text add nothing.
-/

namespace LoxFrontEnd

/-! ### Contents of pieces -/

def Token.content (t : Token) : Kind × String × Option Literal := (t.kind, t.lexeme, t.literal)

def Piece.content? (piece : Piece) : Option (Kind × String × Option Literal) :=
  match piece.element with
  | .token kind => some (kind, String.ofList piece.text, Literal.ofLexeme? kind piece.text)
  | _ => none

theorem map_content_tokensFrom (p : Position) (ps : List Piece) :
    (tokensFrom p ps).map Token.content = ps.filterMap Piece.content? := by
  induction ps generalizing p with
  | nil => rfl
  | cons piece more ih =>
    rw [tokensFrom, List.map_append, ih, Piece.token?]
    cases he : piece.element with
    | token kind => simp [Piece.content?, he, Token.content]
    | trivia => simp [Piece.content?, he]
    | fault fault => simp [Piece.content?, he]

theorem reportsFrom_eq_nil_iff (p : Position) (ps : List Piece) :
    reportsFrom p ps = [] ↔ ∀ piece ∈ ps, piece.isFaulty = false := by
  induction ps generalizing p with
  | nil => simp [reportsFrom]
  | cons piece more ih =>
    rw [reportsFrom, List.append_eq_nil_iff, ih, List.forall_mem_cons, Piece.report?]
    cases he : piece.element <;> simp [Piece.isFaulty, he]

theorem tokensFrom_eq_nil_iff (p : Position) (ps : List Piece) :
    tokensFrom p ps = [] ↔ ∀ piece ∈ ps, piece.isToken = false := by
  induction ps generalizing p with
  | nil => simp [tokensFrom]
  | cons piece more ih =>
    rw [tokensFrom, List.append_eq_nil_iff, ih, List.forall_mem_cons, Piece.token?]
    cases he : piece.element <;> simp [Piece.isToken, he]

theorem exists_lexeme_of_mem_tokensFrom {text : List Char} {p : Position} {t : Token}
    (h : t ∈ tokensFrom p (pieces text)) :
    Lexeme t.kind t.lexeme.toList ∧ t.literal = Literal.ofLexeme? t.kind t.lexeme.toList := by
  have hm : t.content ∈ (pieces text).filterMap Piece.content? := by
    rw [← map_content_tokensFrom p]
    exact List.mem_map_of_mem h
  obtain ⟨piece, hp, hc⟩ := List.mem_filterMap.1 hm
  cases he : piece.element with
  | token kind =>
    simp only [Piece.content?, he, Token.content, Option.some.injEq, Prod.mk.injEq] at hc
    obtain ⟨hk, hl, hv⟩ := hc
    rw [← hk, ← hl, ← hv, String.toList_ofList]
    exact ⟨lexeme_of_mem_pieces hp he, rfl⟩
  | trivia => simp [Piece.content?, he] at hc
  | fault fault => simp [Piece.content?, he] at hc

theorem literal_of_mem_tokens {source : String} {t : Token} (h : t ∈ (scan source).tokens) :
    t.literal = Literal.ofLexeme? t.kind t.lexeme.toList := by
  rw [Scan.tokens, List.mem_append, List.mem_singleton] at h
  rcases h with h | rfl
  · exact (exists_lexeme_of_mem_tokensFrom h).2
  · rfl

/-! ### Blanks -/

def Piece.blank (c : Char) : Piece := ⟨.trivia, [c]⟩

theorem pieces_blanks_append {gap : List Char} (h : ∀ c ∈ gap, isBlank c = true) (rest : List Char) :
    pieces (gap ++ rest) = gap.map Piece.blank ++ pieces rest := by
  induction gap with
  | nil => rfl
  | cons c gap ih =>
    have hc : isBlank c = true := h c List.mem_cons_self
    have hgap := ih fun d hd => h d (List.mem_cons_of_mem c hd)
    rw [List.cons_append, pieces_cons, Cut.first_blank hc, List.map_cons, List.cons_append]
    exact congrArg (Piece.blank c :: ·) hgap

theorem filterMap_content_blanks (gap : List Char) :
    (gap.map Piece.blank).filterMap Piece.content? = [] := by
  rw [List.filterMap_eq_nil_iff]
  intro piece hp
  obtain ⟨c, -, rfl⟩ := List.mem_map.1 hp
  rfl

theorem isFaulty_of_mem_blanks {gap : List Char} {piece : Piece} (h : piece ∈ gap.map Piece.blank) :
    piece.isFaulty = false := by
  obtain ⟨c, -, rfl⟩ := List.mem_map.1 h
  rfl

/-! ### Characters of contents -/

def lexemeChars (contents : List (Kind × String × Option Literal)) : List Char :=
  contents.flatMap fun x => x.2.1.toList

/-- Lexemes are written in the text, so no character is more frequent in them. -/
theorem count_lexemeChars_le (c : Char) (text : List Char) :
    (lexemeChars ((pieces text).filterMap Piece.content?)).count c ≤ text.count c := by
  fun_induction pieces text with
  | case1 => exact Nat.le_refl _
  | case2 d rest ih =>
    have hs := congrArg (List.count c) (Cut.first_source d rest)
    rw [Cut.source, List.count_append] at hs
    rw [← hs, List.filterMap_cons]
    cases he : (Cut.first d rest).piece.element with
    | token kind =>
      simp only [Piece.content?, he, lexemeChars, List.flatMap_cons, String.toList_ofList,
        List.count_append] at ih ⊢
      omega
    | trivia =>
      simp only [Piece.content?, he]
      omega
    | fault fault =>
      simp only [Piece.content?, he]
      omega

end LoxFrontEnd
