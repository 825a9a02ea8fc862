import LoxFrontEnd.Source.Scan
import LoxFrontEnd.Text.LetterCase
import LoxFrontEnd.Text.Quoted

/-!
# Diagnostics

A diagnostic says what is wrong on which line, how severe it is, and may carry a code and a help text.
The code of a reported message is found from its wording, the help text from the code.
-/

namespace LoxFrontEnd

/-! ### Messages -/

def unterminatedString : String := "Unterminated string."

def unterminatedComment : String := "Unterminated comment."

/-- The first words of the message for what begins no element. -/
def unexpectedCharacter : String := "Unexpected character"

def unexpectedMessage (text : String) : String := unexpectedCharacter ++ ": '" ++ text ++ "'."

def LexicalFault.message : LexicalFault → String
  | .unexpected c => unexpectedMessage (String.ofList [c])
  | .unterminatedString => LoxFrontEnd.unterminatedString
  | .unterminatedComment => LoxFrontEnd.unterminatedComment

def Report.message (r : Report) : String := r.fault.message

/-! ### Codes -/

inductive DiagnosticCode where
  | unexpectedCharacter
  | unterminatedString
  | unterminatedComment
deriving DecidableEq

namespace DiagnosticCode

def all : List DiagnosticCode := [unexpectedCharacter, unterminatedString, unterminatedComment]

def id : DiagnosticCode → String
  | unexpectedCharacter => "L001"
  | unterminatedString => "L002"
  | unterminatedComment => "L003"

def title : DiagnosticCode → String
  | unexpectedCharacter => LoxFrontEnd.unexpectedCharacter
  | unterminatedString => "Unterminated string literal"
  | unterminatedComment => "Unterminated block comment"

def help? : DiagnosticCode → Option String
  | unexpectedCharacter => none
  | unterminatedString => some "String literals must be closed with a matching '\"'."
  | unterminatedComment => some "Every '/*' needs a matching '*/', including nested ones."

/-- The class that a message belongs to, by its first words or by its whole wording. -/
def ofMessage? (message : String) : Option DiagnosticCode :=
  if LoxFrontEnd.unexpectedCharacter.toList.isPrefixOf message.toList then some unexpectedCharacter
  else if message = LoxFrontEnd.unterminatedString then some unterminatedString
  else if message = LoxFrontEnd.unterminatedComment then some unterminatedComment
  else none

def ofFault : LexicalFault → DiagnosticCode
  | .unexpected _ => unexpectedCharacter
  | .unterminatedString => unterminatedString
  | .unterminatedComment => unterminatedComment

/-- The wording of a fault gives its class away, whatever character it quotes. -/
theorem ofMessage?_message (fault : LexicalFault) : ofMessage? fault.message = some (ofFault fault) := by
  cases fault with
  | unexpected c =>
    have hp : LoxFrontEnd.unexpectedCharacter.toList.isPrefixOf
        (unexpectedMessage (String.ofList [c])).toList = true := by
      rw [List.isPrefixOf_iff_prefix]
      simp only [unexpectedMessage, String.toList_append, List.append_assoc]
      exact List.prefix_append _ _
    simp only [ofMessage?, LexicalFault.message, hp, ofFault, if_true]
  | unterminatedString => decide
  | unterminatedComment => decide

end DiagnosticCode

/-! ### Diagnostics -/

structure Diagnostic where
  message : String
  line : Int
  severity : String := "error"
  code : Option String := none
  help : Option String := none
deriving DecidableEq

namespace Diagnostic

def ofMessage (line : Int) (message : String) : Diagnostic :=
  let code := DiagnosticCode.ofMessage? message
  { message, line, code := code.map DiagnosticCode.id, help := code.bind DiagnosticCode.help? }

def ofReport (r : Report) : Diagnostic := ofMessage r.line r.message

/-- Only this exact severity counts as an error. -/
def isError (d : Diagnostic) : Bool := d.severity == "error"

/-- Line, severity and message, and the help text on a line of its own where there is one. -/
def render (d : Diagnostic) : String :=
  let head := "[line " ++ toString d.line ++ "] " ++ capitalised d.severity ++ ": " ++ d.message
  match d.help with
  | none => head
  | some help => if help = "" then head else head ++ "\n  help: " ++ help

def summary (d : Diagnostic) : String := "[line " ++ toString d.line ++ "] Error: " ++ d.message

def inspect (d : Diagnostic) : String :=
  let optional (text : Option String) : String :=
    match text with
    | none => "None"
    | some s => quoted s
  "Diagnostic(message=" ++ quoted d.message ++ ", line=" ++ toString d.line ++ ", severity=" ++
    quoted d.severity ++ ", code=" ++ optional d.code ++ ", help_text=" ++ optional d.help ++ ")"

end Diagnostic

end LoxFrontEnd
