import LoxFrontEnd.Diagnostic.Basic

/-!
# Log events

What is noted while text is read. Each event belongs to one channel and has one level; an event is
printed bare, or with its level and channel in front.
-/

namespace LoxFrontEnd

inductive LogLevel where
  | debug
  | error
deriving DecidableEq

def LogLevel.name : LogLevel → String
  | .debug => "DEBUG"
  | .error => "ERROR"

inductive LogEvent where
  | opening (path : String)
  | scanning (characters : Nat)
  | reported (line : Int) (message : String)
  | finished (tokens : Nat) (lines : Int)
  | faulty (filename : String) (errors : Nat)
deriving DecidableEq

namespace LogEvent

/-- Reports are errors; all else is of interest to a verbose reader only. -/
def level : LogEvent → LogLevel
  | reported .. => .error
  | _ => .debug

def channel : LogEvent → String
  | opening _ => "lox.cli"
  | reported .. => "lox.lexer.errors"
  | _ => "lox.lexer.lexer"

def text : LogEvent → String
  | opening path => "Tokenizing " ++ path
  | scanning characters => "Scanning " ++ toString characters ++ " characters"
  | reported line message => "[line " ++ toString line ++ "] Error: " ++ message
  | finished tokens lines =>
    "Scan finished: " ++ toString tokens ++ " tokens, " ++ toString lines ++ " lines"
  | faulty filename errors => filename ++ ": " ++ toString errors ++ " lexical error(s)"

def labelled (e : LogEvent) : String := e.level.name ++ " " ++ e.channel ++ ": " ++ e.text

/-- What a reader is shown: every event with its label, or the bare errors. -/
def shown (verbose : Bool) (events : List LogEvent) : List String :=
  if verbose then events.map labelled
  else (events.filter fun e => e.level == .error).map text

end LogEvent

def Scan.events (source : String) (s : Scan) : List LogEvent :=
  .scanning source.length ::
    (s.reports.map (fun r => .reported r.line r.message) ++
      [.finished s.tokens.length s.finish.line])

/-- Without the labels, a scan shows one line for each report. -/
theorem shown_events (source : String) (s : Scan) :
    LogEvent.shown false (s.events source) =
      s.reports.map fun r => (LogEvent.reported r.line r.message).text := by
  have hall : (s.reports.map fun r => LogEvent.reported r.line r.message).filter
      (fun e => e.level == .error) = s.reports.map fun r => .reported r.line r.message := by
    refine List.filter_eq_self.2 fun e he => ?_
    obtain ⟨r, -, rfl⟩ := List.mem_map.1 he
    rfl
  have hs : (LogEvent.scanning source.length).level ≠ .error := by simp [LogEvent.level]
  have hf : (LogEvent.finished s.tokens.length s.finish.line).level ≠ .error := by simp [LogEvent.level]
  simp [LogEvent.shown, Scan.events, hall, hs, hf, Function.comp_def]

end LoxFrontEnd
