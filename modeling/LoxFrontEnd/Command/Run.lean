import LoxFrontEnd.Command.Arguments
import LoxFrontEnd.Diagnostic.Journal
import LoxFrontEnd.Log
import LoxFrontEnd.Source.Directory
import LoxFrontEnd.Token.Rendering

/-!
# Running the command

What the command prints and how it ends. With a script it dumps the tokens of the file; without one it
answers each line of input on its own, so nothing that is left open on one line reaches the next. Errors
go to the second stream, and everything that was noted when the command is verbose.
-/

namespace LoxFrontEnd

/-! ### Outcomes -/

inductive ExitStatus where
  | ok
  | usage
  | dataError
  | noInput
deriving DecidableEq

def ExitStatus.code : ExitStatus → Nat
  | ok => 0
  | usage => 64
  | dataError => 65
  | noInput => 66

/-- How a run ends: with an exit status, or cut short by a script that nothing was prepared for. -/
inductive Ending where
  | exited (status : ExitStatus)
  | interrupted (error : ReadError)
deriving DecidableEq

structure Outcome where
  stdout : String := ""
  stderr : String := ""
  ending : Ending := .exited .ok
deriving DecidableEq

namespace Command

/-! ### Texts -/

def usage : String := "usage: lox [-h] [-v] [script]\n"

def lines (texts : List String) : String := String.join (texts.map (· ++ "\n"))

def helpText : String :=
  usage ++ lines
    ["",
      "Tokenize Lox source code",
      "",
      "positional arguments:",
      "  script         Lox source file to tokenize",
      "",
      "options:",
      "  -h, --help     show this help message and exit",
      "  -v, --verbose  Enable debug logging",
      "",
      "Examples:",
      "    lox hello.lox            # Print the tokens of hello.lox",
      "    lox                      # Start an interactive token prompt",
      "    lox -v hello.lox         # Same, with debug logging",
      "        "]

/-- The dump of a scan, one line for each token. -/
def dump (s : Scan) : String := lines (s.tokens.map Token.dumpLine)

def shown (verbose : Bool) (events : List LogEvent) : String := lines (LogEvent.shown verbose events)

/-! ### Printing a text -/

/-- What a text puts on either stream, and the journal after it. -/
structure Printed where
  stdout : String
  stderr : String
  journal : Journal
deriving DecidableEq

def printText (verbose : Bool) (journal : Journal) (source : String) : Printed :=
  let s := scan source
  { stdout := dump s
    stderr := shown verbose (s.events source)
    journal := journal.record s }

/-! ### With a script -/

/-- Print a file of which this much is known. -/
def runFile (verbose : Bool) (path : String) (content : Except ReadError String) : Outcome :=
  let opening := shown verbose [.opening path]
  match content with
  | .ok source =>
    let printed := printText verbose {} source
    { stdout := printed.stdout
      stderr := opening ++ printed.stderr
      ending := .exited (if printed.journal.hasErrors then .dataError else .ok) }
  | .error (.system e) =>
    { stderr := opening ++ "error: cannot read " ++ path ++ ": " ++ e.reason ++ "\n"
      ending := .exited .noInput }
  | .error e => { stderr := opening, ending := .interrupted e }

/-! ### At the prompt -/

def prompt : String := "> "

/-- One line of a session at the prompt: the journal that it found, and what it led to. -/
structure Exchange where
  found : Journal
  printed : Printed
deriving DecidableEq

/-- Print the lines one by one. The journal is cleared after each, so that a mistake on one line does
not count against the next. -/
def exchanges (verbose : Bool) (journal : Journal) : List String → List Exchange
  | [] => []
  | line :: more =>
    let printed := printText verbose journal line
    ⟨journal, printed⟩ :: exchanges verbose (printed.journal.after .reset) more

/-- Answer all lines; a prompt comes before each, and once more before the end of the input. -/
def runPrompt (verbose : Bool) (input : List String) : Outcome :=
  let answers := (exchanges verbose {} input).map Exchange.printed
  { stdout := String.join (answers.map fun a => prompt ++ a.stdout) ++ prompt ++ "\n"
    stderr := String.join (answers.map Printed.stderr) }

def inputLines (input : String) : List String :=
  (Newline.inputLines input.toList).map String.ofList

/-! ### The command -/

/-- Do what an invocation asks for. An empty script is none. -/
def perform (d : Directory) (input : String) : Invocation → Outcome
  | .help => { stdout := helpText }
  | .refused e =>
    { stderr := usage ++ "lox: error: " ++ e.message ++ "\n", ending := .exited .usage }
  | .run verbose none => runPrompt verbose (inputLines input)
  | .run verbose (some path) =>
    if path = "" then runPrompt verbose (inputLines input)
    else runFile verbose path (d.readText path)

def run (arguments : List String) (d : Directory) (input : String) : Outcome :=
  perform d input (.parse arguments)

end Command

end LoxFrontEnd
