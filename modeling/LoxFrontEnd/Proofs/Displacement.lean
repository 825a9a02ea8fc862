import LoxFrontEnd.Source.Scan

/-!
# Displacement

What becomes of a scan when its text stands further on in a larger one: every line is raised by the
newlines that come before the text, and every offset by the characters. Pieces know nothing of where
they stand, so their tokens and reports move as the position does at which the first of them begins.
-/

namespace LoxFrontEnd

/-! ### Moving -/

def Position.moved (p : Position) (lines characters : Int) : Position :=
  ⟨p.line + lines, p.offset + characters⟩

def Token.moved (t : Token) (lines characters : Int) : Token :=
  { t with line := t.line + lines, offset := t.offset + characters }

def Report.moved (r : Report) (lines : Int) : Report := { r with line := r.line + lines }

theorem Position.moved_moved (p : Position) (lines characters more further : Int) :
    (p.moved lines characters).moved more further =
      p.moved (more + lines) (further + characters) := by
  simp only [moved, Position.mk.injEq]
  omega

theorem Token.moved_moved (t : Token) (lines characters more further : Int) :
    (t.moved lines characters).moved more further =
      t.moved (more + lines) (further + characters) := by
  simp only [moved, Token.mk.injEq, true_and]
  omega

theorem Report.moved_moved (r : Report) (lines more : Int) :
    (r.moved lines).moved more = r.moved (more + lines) := by
  simp only [moved, Report.mk.injEq, and_true]
  omega

theorem Token.moved_zero (t : Token) : t.moved 0 0 = t := by simp [moved]

theorem Report.moved_zero (r : Report) : r.moved 0 = r := by simp [moved]

theorem Scan.map_tokens_moved (s : Scan) (lines characters : Int) :
    s.tokens.map (·.moved lines characters) =
      s.body.map (·.moved lines characters) ++
        [Token.endOfInput (s.finish.moved lines characters)] := by
  rw [Scan.tokens, List.map_append]
  rfl

/-! ### Scanning further on -/

theorem Position.after_moved (p : Position) (lines characters : Int) (text : List Char) :
    (p.moved lines characters).after text = (p.after text).moved lines characters := by
  simp only [after, moved, Position.mk.injEq]
  omega

theorem Piece.token?_moved (piece : Piece) (p : Position) (lines characters : Int) :
    piece.token? (p.moved lines characters) =
      (piece.token? p).map (·.moved lines characters) := by
  unfold token?
  split
  · rfl
  · rfl

theorem Piece.report?_moved (piece : Piece) (p : Position) (lines characters : Int) :
    piece.report? (p.moved lines characters) = (piece.report? p).map (·.moved lines) := by
  unfold report?
  split
  · rw [Position.after_moved]
    rfl
  · rfl

theorem tokensFrom_moved (p : Position) (lines characters : Int) (ps : List Piece) :
    tokensFrom (p.moved lines characters) ps =
      (tokensFrom p ps).map (·.moved lines characters) := by
  induction ps generalizing p with
  | nil => rfl
  | cons piece more ih =>
    rw [tokensFrom, tokensFrom, Piece.token?_moved, Position.after_moved, ih, List.map_append,
      Option.toList_map]

theorem reportsFrom_moved (p : Position) (lines characters : Int) (ps : List Piece) :
    reportsFrom (p.moved lines characters) ps = (reportsFrom p ps).map (·.moved lines) := by
  induction ps generalizing p with
  | nil => rfl
  | cons piece more ih =>
    rw [reportsFrom, reportsFrom, Piece.report?_moved, Position.after_moved, ih, List.map_append,
      Option.toList_map]

end LoxFrontEnd
