import LoxFrontEnd.Token.Kind

/-!
# First characters

What the first character of a stretch of source text says about the stretch. Every character has one
role, and all that begin nothing share the last.
-/

namespace LoxFrontEnd

/-- A character that a word may begin with: an ASCII letter or the underscore. -/
def isWordStart (c : Char) : Bool := c.isAlpha || c == '_'

def isWordPart (c : Char) : Bool := isWordStart c || c.isDigit

/-- A character between elements; a newline is one of them. -/
def isBlank (c : Char) : Bool := c == ' ' || c == '\r' || c == '\t' || c == '\n'

/-- The role of a character that begins an element. -/
inductive Lead where
  | single (kind : Kind)
  | equalSuffixed (plain withEqual : Kind)
  | slash
  | blank
  | quote
  | digit
  | word
  | nothing
deriving DecidableEq

def Lead.of (c : Char) : Lead :=
  match Kind.single? c with
  | some kind => .single kind
  | none =>
    match Kind.equalSuffixed? c with
    | some (plain, withEqual) => .equalSuffixed plain withEqual
    | none =>
      if c = '/' then .slash
      else if isBlank c then .blank
      else if c = '"' then .quote
      else if c.isDigit then .digit
      else if isWordStart c then .word
      else .nothing

namespace Lead

theorem of_slash : of '/' = .slash := by decide

theorem of_quote : of '"' = .quote := by decide

theorem of_newline : of '\n' = .blank := by decide

end Lead

end LoxFrontEnd
