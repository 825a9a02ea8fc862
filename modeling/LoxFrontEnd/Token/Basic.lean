import LoxFrontEnd.Token.Kind
import LoxFrontEnd.Binary64.Notation

/-!
# Tokens

A token is a kind, the text it was read from, the value that the text stands for, and where it begins.
Two tokens are equal when kind, text, value and line are; the offset does not count.
-/

namespace LoxFrontEnd

/-! ### Literals -/

inductive Literal where
  | text (value : String)
  | number (value : Binary64)
deriving DecidableEq

namespace Literal

/-- Numbers are compared as numbers; a text equals no number. -/
def equal : Literal → Literal → Bool
  | text s, text t => s == t
  | number x, number y => x.equal y
  | _, _ => false

def isNan : Literal → Bool
  | text _ => false
  | number x => x.isNan

/-- The value that the text of a token stands for: what is between the quotes of a string, and the
number nearest to a decimal. -/
def ofLexeme? (kind : Kind) (lexeme : List Char) : Option Literal :=
  match kind with
  | .string => some (text (String.ofList (lexeme.drop 1).dropLast))
  | .number => some (number (Decimal.ofText lexeme).toBinary64)
  | _ => none

theorem equal_self (l : Literal) : l.equal l = !l.isNan := by
  cases l with
  | text s => simp [equal, isNan]
  | number x => exact Binary64.equal_self x

end Literal

/-! ### Tokens -/

structure Token where
  kind : Kind
  lexeme : String
  literal : Option Literal
  line : Int
  offset : Int := 0
deriving DecidableEq

namespace Token

/-- Both absent, or both there and equal. -/
def sameLiteral : Option Literal → Option Literal → Bool
  | none, none => true
  | some l, some m => l.equal m
  | _, _ => false

/-- Equality of tokens; where they begin does not count. -/
def equal (t u : Token) : Bool :=
  t.kind == u.kind && t.lexeme == u.lexeme && sameLiteral t.literal u.literal && t.line == u.line

def isLiteral (t : Token) : Bool := t.kind.isLiteral

def isKeyword (t : Token) : Bool := t.kind.isKeyword

def isEndOfInput (t : Token) : Bool := t.kind == .endOfInput

theorem sameLiteral_self (l : Option Literal) : sameLiteral l l = !l.any Literal.isNan := by
  cases l with
  | none => rfl
  | some value => exact value.equal_self

theorem equal_iff {t u : Token} :
    t.equal u = true ↔
      t.kind = u.kind ∧ t.lexeme = u.lexeme ∧ sameLiteral t.literal u.literal = true ∧
        t.line = u.line := by
  simp only [equal, Bool.and_eq_true, beq_iff_eq, and_assoc]

end Token

end LoxFrontEnd
