import LoxFrontEnd.Diagnostic.Journal
import LoxFrontEnd.Log

/-!
# Sessions

A session keeps a source text and its name, the tokens of the last scan of it, and a journal. Every scan
clears the journal first, so what a session answers depends on the requests since its last scan only.
Lists of diagnostics that were asked for can be kept, and told again at any later time.
-/

namespace LoxFrontEnd

structure Session where
  source : String
  filename : String := "<unknown>"
  journal : Journal := {}
  tokens : List Token := []
  kept : List (List Diagnostic) := []
deriving DecidableEq

namespace Session

/-! ### Requests and responses -/

inductive Request where
  | tokenize
  | setSource (source : String)
  | setFilename (filename : String)
  | errors
  | diagnostics
  | keep
  | kept (index : Nat)
  | report (line : Int) (message : String)
  | add (d : Diagnostic)
  | keyword (word : String)
deriving DecidableEq

inductive Reply where
  | nothing
  | tokens (tokens : List Token)
  | diagnostics (diagnostics : List Diagnostic)
  | answer (yes : Bool)
deriving DecidableEq

structure Response where
  session : Session
  reply : Reply := .nothing
  log : List LogEvent := []
deriving DecidableEq

/-- Scan the source that is set now, into a cleared journal. -/
def tokenize (s : Session) : Response :=
  let scanned := scan s.source
  let journal := ({} : Journal).record scanned
  let trailer : List LogEvent :=
    if journal.hasErrors then [.faulty s.filename journal.errors.length] else []
  { session := { s with journal, tokens := scanned.tokens }
    reply := .tokens scanned.tokens
    log := scanned.events s.source ++ trailer }

def respond (s : Session) : Request → Response
  | .tokenize => s.tokenize
  | .setSource source => { session := { s with source } }
  | .setFilename filename => { session := { s with filename } }
  | .errors => { session := s, reply := .diagnostics s.journal.errors }
  | .diagnostics => { session := s, reply := .diagnostics s.journal.entries }
  | .keep => { session := { s with kept := s.kept ++ [s.journal.entries] } }
  | .kept index => { session := s, reply := ((s.kept[index]?).map .diagnostics).getD .nothing }
  | .report line message =>
    { session := { s with journal := s.journal.report line message }
      log := [.reported line message] }
  | .add d => { session := { s with journal := s.journal.add d } }
  | .keyword word => { session := s, reply := .answer (isKeyword word) }

def after (s : Session) (requests : List Request) : Session :=
  requests.foldl (fun s r => (s.respond r).session) s

theorem after_append (s : Session) (rs qs : List Request) :
    s.after (rs ++ qs) = (s.after rs).after qs := by
  simp [after]

theorem tokenize_tokens (s : Session) : s.tokenize.session.tokens = (scan s.source).tokens := rfl

theorem tokenize_entries (s : Session) :
    s.tokenize.session.journal.entries = (scan s.source).reports.map .ofReport := rfl

end Session

end LoxFrontEnd
