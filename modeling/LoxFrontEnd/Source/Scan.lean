import LoxFrontEnd.Source.Piece
import LoxFrontEnd.Token.Basic

/-!
# Scanning

The tokens and the reports of a source text, read off its pieces. A token carries the position where
its piece begins; a report carries the line where its piece ends. After the pieces comes one token for
the end of the input, so there is always a last token.
-/

namespace LoxFrontEnd

/-! ### Positions -/

/-- A place in a text: its line, from one, and the number of characters before it. -/
structure Position where
  line : Int := 1
  offset : Int := 0
deriving DecidableEq

namespace Position

/-- The position after a text that begins here; each newline ends a line. -/
def after (p : Position) (text : List Char) : Position :=
  ⟨p.line + text.count '\n', p.offset + text.length⟩

theorem after_nil (p : Position) : p.after [] = p := by simp [after]

theorem after_append (p : Position) (text more : List Char) :
    p.after (text ++ more) = (p.after text).after more := by
  simp only [after, List.count_append, List.length_append, Position.mk.injEq, Int.natCast_add]
  omega

end Position

/-! ### Tokens and reports of pieces -/

/-- A fault, and the line on which it was noticed. -/
structure Report where
  line : Int
  fault : LexicalFault
deriving DecidableEq

namespace Piece

def token? (piece : Piece) (p : Position) : Option Token :=
  match piece.element with
  | .token kind =>
    some
      { kind
        lexeme := String.ofList piece.text
        literal := Literal.ofLexeme? kind piece.text
        line := p.line
        offset := p.offset }
  | _ => none

def report? (piece : Piece) (p : Position) : Option Report :=
  match piece.element with
  | .fault fault => some ⟨(p.after piece.text).line, fault⟩
  | _ => none

end Piece

def Token.endOfInput (p : Position) : Token :=
  { kind := .endOfInput, lexeme := "", literal := none, line := p.line, offset := p.offset }

def tokensFrom (p : Position) : List Piece → List Token
  | [] => []
  | piece :: more => (piece.token? p).toList ++ tokensFrom (p.after piece.text) more

def reportsFrom (p : Position) : List Piece → List Report
  | [] => []
  | piece :: more => (piece.report? p).toList ++ reportsFrom (p.after piece.text) more

theorem tokensFrom_append (p : Position) (ps qs : List Piece) :
    tokensFrom p (ps ++ qs) = tokensFrom p ps ++ tokensFrom (p.after (ps.flatMap Piece.text)) qs := by
  induction ps generalizing p with
  | nil => simp [tokensFrom, Position.after_nil]
  | cons piece more ih => simp [tokensFrom, ih, Position.after_append]

theorem reportsFrom_append (p : Position) (ps qs : List Piece) :
    reportsFrom p (ps ++ qs) =
      reportsFrom p ps ++ reportsFrom (p.after (ps.flatMap Piece.text)) qs := by
  induction ps generalizing p with
  | nil => simp [reportsFrom, Position.after_nil]
  | cons piece more ih => simp [reportsFrom, ih, Position.after_append]

/-! ### Scans -/

/-- What a source text yields: the tokens in it, where it ends, and the reports on it. -/
structure Scan where
  body : List Token
  finish : Position
  reports : List Report
deriving DecidableEq

def Scan.tokens (s : Scan) : List Token := s.body ++ [Token.endOfInput s.finish]

/-- Scan a source text; faults are reported and passed over. -/
def scan (source : String) : Scan :=
  { body := tokensFrom {} (pieces source.toList)
    finish := ({} : Position).after source.toList
    reports := reportsFrom {} (pieces source.toList) }

end LoxFrontEnd
