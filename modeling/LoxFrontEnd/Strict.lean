import LoxFrontEnd.Session
import LoxFrontEnd.Source.Directory

/-!
# Strict reading

For callers that want all tokens or a failure: the first error of a session over the text is the
failure. A file that cannot be read as text fails before any of it is scanned.
-/

namespace LoxFrontEnd

/-- The failure of a strict reading; the diagnostic that caused it is always an error. -/
structure LexicalError where
  diagnostic : Diagnostic
deriving DecidableEq

namespace LexicalError

def new (message : String) (line : Int) (code help : Option String) : LexicalError :=
  ⟨{ message, line, code, help }⟩

def ofDiagnostic (d : Diagnostic) : LexicalError := new d.message d.line d.code d.help

def line (e : LexicalError) : Int := e.diagnostic.line

def message (e : LexicalError) : String := e.diagnostic.render

end LexicalError

def readStrictly (source : String) (filename : String := "<string>") :
    Except LexicalError (List Token) :=
  let session := ({ source, filename } : Session).tokenize.session
  match session.journal.errors with
  | [] => .ok session.tokens
  | d :: _ => .error (.ofDiagnostic d)

inductive FileError where
  | unreadable (path : String) (error : ReadError)
  | lexical (error : LexicalError)
deriving DecidableEq

def readFileStrictly (d : Directory) (path : String) : Except FileError (List Token) :=
  match d.readText path with
  | .error e => .error (.unreadable path e)
  | .ok source => (readStrictly source path).mapError .lexical

theorem readStrictly_eq_ok_iff {source filename : String} {ts : List Token} :
    readStrictly source filename = .ok ts ↔
      (scan source).reports = [] ∧ ts = (scan source).tokens := by
  have he : ({ source, filename } : Session).tokenize.session.journal.errors =
      (scan source).reports.map .ofReport :=
    Journal.errors_record {} (scan source)
  simp only [readStrictly, he, Session.tokenize_tokens]
  cases (scan source).reports with
  | nil => simp [eq_comm]
  | cons r more => simp

end LoxFrontEnd
