import LoxFrontEnd.Token.Basic
import LoxFrontEnd.Text.Quoted

/-!
# Printed tokens

Three printed forms of a token: one line of a dump, with tabs between its fields, a short form, and a
form that shows its fields.
-/

namespace LoxFrontEnd

def Literal.render : Literal → String
  | .text s => quoted s
  | .number x => String.ofList x.render

namespace Token

/-- Kind, text, value and line, with a tab between each two; the value is empty where there is none. -/
def dumpLine (t : Token) : String :=
  let literal :=
    match t.literal with
    | none => ""
    | some l => l.render
  t.kind.name ++ "\t" ++ quoted t.lexeme ++ "\t" ++ literal ++ "\t(line " ++ toString t.line ++ ")"

/-- The kind with the text, and the value where there is one. -/
def brief (t : Token) : String :=
  match t.literal with
  | none => t.kind.name ++ "(" ++ quoted t.lexeme ++ ")"
  | some l => t.kind.name ++ "(" ++ quoted t.lexeme ++ " -> " ++ l.render ++ ")"

/-- All fields that count for equality. -/
def inspect (t : Token) : String :=
  let literal :=
    match t.literal with
    | none => "None"
    | some l => l.render
  "Token(" ++ t.kind.name ++ ", " ++ quoted t.lexeme ++ ", " ++ literal ++ ", line=" ++
    toString t.line ++ ")"

end Token

end LoxFrontEnd
