import LoxFrontEnd.Diagnostic.Basic
import LoxFrontEnd.Proofs.LongestMatch
import Mathlib.Data.List.Forall2

/-!
# Segmentation

The tokens and the reports of a scan stand for pieces of its source, in their order. The pieces are the
division by longest match, so a scan is given by the grammar of elements alone.
-/

namespace LoxFrontEnd

/-! ### Pieces in their places -/

def Piece.isToken (piece : Piece) : Bool :=
  match piece.element with
  | .token _ => true
  | _ => false

def Piece.isFaulty (piece : Piece) : Bool :=
  match piece.element with
  | .fault _ => true
  | _ => false

def placedFrom (offset : Nat) : List Piece → List (Nat × Piece)
  | [] => []
  | piece :: more => (offset, piece) :: placedFrom (offset + piece.text.length) more

/-- The token is what a piece of the source that begins after `start` characters stands for. -/
structure Token.StandsFor (t : Token) (source : List Char) (start : Nat) (piece : Piece) : Prop where
  kind : piece.element = .token t.kind
  offset : t.offset = start
  lexeme : t.lexeme.toList = piece.text
  slice : piece.text = (source.drop start).take piece.text.length
  literal : Denotes t.kind piece.text t.literal

/-- The report is the complaint about a piece. -/
def Report.Concerns (r : Report) (piece : Piece) : Prop :=
  match piece.element with
  | .fault (.unexpected c) =>
    piece.text = [c] ∧ r.message = "Unexpected character: '" ++ String.ofList [c] ++ "'."
  | .fault .unterminatedString => r.message = "Unterminated string."
  | .fault .unterminatedComment => r.message = "Unterminated comment."
  | _ => False

theorem drop_add_of_drop_eq {source text more : List Char} {n : Nat}
    (h : source.drop n = text ++ more) : source.drop (n + text.length) = more := by
  rw [← List.drop_drop, h, List.drop_left]

theorem forall₂_tokensFrom {source : List Char} {ps : List Piece} {p : Position} {n : Nat}
    (hn : p.offset = n) (hs : source.drop n = ps.flatMap Piece.text)
    (hl : ∀ piece ∈ ps, ∀ kind, piece.element = .token kind → Lexeme kind piece.text) :
    List.Forall₂ (fun q (t : Token) => t.StandsFor source q.1 q.2)
      ((placedFrom n ps).filter fun q => q.2.isToken) (tokensFrom p ps) := by
  induction ps generalizing p n with
  | nil => exact .nil
  | cons piece more ih =>
    rw [List.flatMap_cons] at hs
    have hstep := ih (p := p.after piece.text) (n := n + piece.text.length)
      (by simp [Position.after, hn]) (drop_add_of_drop_eq hs)
      (fun q hq => hl q (List.mem_cons_of_mem _ hq))
    rw [placedFrom, tokensFrom, Piece.token?]
    cases he : piece.element with
    | token kind =>
      rw [List.filter_cons_of_pos (by simp [Piece.isToken, he])]
      refine .cons ?_ hstep
      have hlex := hl piece List.mem_cons_self kind he
      exact
        { kind := he
          offset := hn
          lexeme := String.toList_ofList
          slice := by rw [hs, List.take_left]
          literal := hlex.denotes }
    | trivia =>
      rw [List.filter_cons_of_neg (by simp [Piece.isToken, he])]
      exact hstep
    | fault fault =>
      rw [List.filter_cons_of_neg (by simp [Piece.isToken, he])]
      exact hstep

theorem forall₂_reportsFrom {ps : List Piece} {p : Position} {n : Nat}
    (hu : ∀ piece ∈ ps, ∀ c, piece.element = .fault (.unexpected c) → piece.text = [c]) :
    List.Forall₂ (fun q (r : Report) => r.Concerns q.2)
      ((placedFrom n ps).filter fun q => q.2.isFaulty) (reportsFrom p ps) := by
  induction ps generalizing p n with
  | nil => exact .nil
  | cons piece more ih =>
    have hstep := ih (p := p.after piece.text) (n := n + piece.text.length)
      (fun q hq => hu q (List.mem_cons_of_mem _ hq))
    rw [placedFrom, reportsFrom, Piece.report?]
    cases he : piece.element with
    | token kind =>
      rw [List.filter_cons_of_neg (by simp [Piece.isFaulty, he])]
      exact hstep
    | trivia =>
      rw [List.filter_cons_of_neg (by simp [Piece.isFaulty, he])]
      exact hstep
    | fault fault =>
      rw [List.filter_cons_of_pos (by simp [Piece.isFaulty, he])]
      refine .cons ?_ hstep
      rw [Report.Concerns, he]
      cases fault with
      | unexpected c => exact ⟨hu piece List.mem_cons_self c he, rfl⟩
      | unterminatedString => rfl
      | unterminatedComment => rfl

/-- A scan is the division of its source by longest match: a token for each piece that is one, a report
for each faulty piece, both in order, and a last token at the end of the source. -/
theorem scan_longestMatch (source : String) :
    ∃ ps, (∀ qs, Segmentation source.toList qs ↔ qs = ps) ∧
      List.Forall₂ (fun q (t : Token) => t.StandsFor source.toList q.1 q.2)
        ((placedFrom 0 ps).filter fun q => q.2.isToken) (scan source).body ∧
      List.Forall₂ (fun q (r : Report) => r.Concerns q.2)
        ((placedFrom 0 ps).filter fun q => q.2.isFaulty) (scan source).reports ∧
      (scan source).tokens = (scan source).body ++ [Token.endOfInput (scan source).finish] ∧
      (scan source).finish.offset = source.toList.length := by
  refine ⟨pieces source.toList, fun qs => segmentation_iff, ?_, ?_, rfl, ?_⟩
  · refine forall₂_tokensFrom rfl ?_ ?_
    · rw [List.drop_zero, flatMap_text_pieces]
    · exact fun piece hp kind hk => lexeme_of_mem_pieces hp hk
  · exact forall₂_reportsFrom fun piece hp c hc => (text_of_mem_pieces_unexpected hp hc).1
  · exact Int.zero_add _

end LoxFrontEnd
