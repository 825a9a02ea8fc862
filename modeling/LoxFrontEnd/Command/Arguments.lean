import LoxFrontEnd.Text.DecimalDigit
import LoxFrontEnd.Text.Quoted

/-!
# Command arguments

What the command is asked to do. There are two switches, each with a short and a long form, and one
script. Every argument is classified before any takes effect: a long form may be cut short as long as
one switch is meant, short forms may be written together, and after a lone double dash everything is a
script or too much.
-/

namespace LoxFrontEnd

/-! ### Switches -/

inductive Switch where
  | help
  | verbose
deriving DecidableEq

namespace Switch

def all : List Switch := [help, verbose]

def letter : Switch → Char
  | help => 'h'
  | verbose => 'v'

def longForm : Switch → String
  | help => "--help"
  | verbose => "--verbose"

/-- Both forms, as error messages name a switch. -/
def label (s : Switch) : String := "-" ++ String.ofList [s.letter] ++ "/" ++ s.longForm

def ofLetter? (c : Char) : Option Switch := all.find? fun s => s.letter == c

def matching (text : List Char) : List Switch :=
  all.filter fun s => text.isPrefixOf s.longForm.toList

end Switch

/-! ### Usage errors -/

inductive UsageError where
  | ignoredValue (switch : Switch) (value : String)
  | ambiguous (argument : String) (candidates : List Switch)
  | unrecognised (arguments : List String)
deriving DecidableEq

def UsageError.message : UsageError → String
  | ignoredValue switch value =>
    "argument " ++ switch.label ++ ": ignored explicit argument " ++ quoted value
  | ambiguous argument candidates =>
    "ambiguous option: " ++ argument ++ " could match " ++
      String.intercalate ", " (candidates.map Switch.longForm)
  | unrecognised arguments => "unrecognized arguments: " ++ String.intercalate " " arguments

/-! ### Classification -/

/-- What one argument is. A switch may have a value stuck to it. -/
inductive Argument where
  | positional (text : String)
  | separator
  | long (switch : Switch) (value : Option (List Char))
  | short (switch : Switch) (value : Option (List Char))
  | unknown (text : String)
deriving DecidableEq

/-- A negative number: a minus, then digits, or digits after a point; one newline may end it. -/
def isNegativeNumber (text : List Char) : Bool :=
  match text with
  | [] => false
  | c :: rest =>
    let body := if rest.getLast? = some '\n' then rest.dropLast else rest
    let whole := body.takeWhile isDecimalDigit
    let isNumber :=
      match body.dropWhile isDecimalDigit with
      | [] => !whole.isEmpty
      | point :: fraction => point == '.' && !fraction.isEmpty && fraction.all isDecimalDigit
    c == '-' && isNumber

namespace Argument

/-- What an argument is that begins with a dash and names no switch. -/
def other (text : String) : Argument :=
  if isNegativeNumber text.toList then positional text
  else if ' ' ∈ text.toList then positional text
  else unknown text

/-- The text after the first equal sign, if there is one. -/
def valueAfterEqual? (text : List Char) : Option (List Char) :=
  match text.dropWhile (· != '=') with
  | [] => none
  | _ :: value => some value

def classifyLong (text : String) : Except UsageError Argument :=
  match Switch.matching (text.toList.takeWhile (· != '=')) with
  | [] => .ok (other text)
  | [s] => .ok (long s (valueAfterEqual? text.toList))
  | candidates => .error (.ambiguous text candidates)

/-- An argument that begins with one dash and this letter. -/
def classifyShort (text : String) (letter : Char) (rest : List Char) : Argument :=
  match Switch.ofLetter? letter with
  | none => other text
  | some s =>
    match rest with
    | [] => short s none
    | c :: value => if c = '=' then short s (some value) else short s (some (c :: value))

def classify (text : String) : Except UsageError Argument :=
  match text.toList with
  | [] => .ok (positional text)
  | [_] => .ok (positional text)
  | c :: d :: rest =>
    if c ≠ '-' then .ok (positional text)
    else if d = '-' then classifyLong text
    else .ok (classifyShort text d rest)

/-- All arguments; the first that cannot be classified is the fault. -/
def classifyAll : List String → Except UsageError (List Argument)
  | [] => .ok []
  | text :: more =>
    if text = "--" then .ok (separator :: more.map positional)
    else
      match classify text with
      | .error e => .error e
      | .ok argument => (classifyAll more).map (argument :: ·)

end Argument

/-! ### Invocations -/

inductive Invocation where
  | help
  | refused (error : UsageError)
  | run (verbose : Bool) (script : Option String)
deriving DecidableEq

namespace Invocation

/-- The switches that letters written together name, after the first of them. -/
def cluster (latest : Switch) : List Char → Except UsageError (List Switch)
  | [] => .ok [latest]
  | c :: rest =>
    match Switch.ofLetter? c with
    | some s => (cluster s rest).map (latest :: ·)
    | none => .error (.ignoredValue latest (String.ofList (c :: rest)))

def switchesOf (s : Switch) : Option (List Char) → Except UsageError (List Switch)
  | none => .ok [s]
  | some [] => .error (.ignoredValue s "")
  | some (c :: rest) => cluster s (c :: rest)

/-- What the arguments so far have come to. `atScript` says that the last of them was the script. -/
structure Progress where
  verbose : Bool := false
  script : Option String := none
  atScript : Bool := false
  extras : List String := []

def Progress.extra (p : Progress) (text : String) : Progress :=
  { p with extras := p.extras ++ [text], atScript := false }

/-- Take the arguments from left to right; help and faults end it at once. A separator counts as too
much unless it stands before a script or right after it. -/
def ofArguments (p : Progress) : List Argument → Invocation
  | [] => if p.extras.isEmpty then run p.verbose p.script else refused (.unrecognised p.extras)
  | .positional text :: more =>
    match p.script with
    | none => ofArguments { p with script := some text, atScript := true } more
    | some _ => ofArguments (p.extra text) more
  | .separator :: more =>
    if p.script.isNone || p.atScript then ofArguments { p with atScript := false } more
    else ofArguments (p.extra "--") more
  | .long s (some value) :: _ => refused (.ignoredValue s (String.ofList value))
  | .long .help none :: _ => help
  | .long .verbose none :: more => ofArguments { p with verbose := true, atScript := false } more
  | .short s value :: more =>
    match switchesOf s value with
    | .error e => refused e
    | .ok switches =>
      if .help ∈ switches then help
      else ofArguments { p with verbose := true, atScript := false } more
  | .unknown text :: more => ofArguments (p.extra text) more

def parse (arguments : List String) : Invocation :=
  match Argument.classifyAll arguments with
  | .error e => refused e
  | .ok classified => ofArguments {} classified

end Invocation

end LoxFrontEnd
