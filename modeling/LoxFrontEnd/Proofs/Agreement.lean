import Mathlib.Data.List.Forall2
import LoxFrontEnd.Command.Run
import LoxFrontEnd.Proofs.Encoding
import LoxFrontEnd.Proofs.History
import LoxFrontEnd.Strict

/-!
# Agreement of the ways to read a text

A scan, a session, a strict reading and the command carry the same errors in four forms: reports,
diagnostics, a failure, and an exit status with lines on the second stream. Main statement: whatever
the text, all four tell the same story of it.
-/

namespace LoxFrontEnd

/-! ### Diagnostics of reports -/

/-- A diagnostic is an error and says what a report says. -/
structure Diagnostic.Records (d : Diagnostic) (r : Report) : Prop where
  severity : d.severity = "error"
  line : d.line = r.line
  message : d.message = r.message

theorem Diagnostic.records_ofReport (r : Report) : (ofReport r).Records r := ⟨rfl, rfl, rfl⟩

theorem Diagnostic.forall₂_records (reports : List Report) :
    List.Forall₂ Records (reports.map ofReport) reports := by
  induction reports with
  | nil => exact .nil
  | cons r more ih => exact .cons (records_ofReport r) ih

def Report.render (r : Report) : String := "[line " ++ toString r.line ++ "] Error: " ++ r.message

/-! ### Strict readings -/

theorem readStrictly_of_reports_nil {source : String} (h : (scan source).reports = [])
    (filename : String) : readStrictly source filename = .ok (scan source).tokens :=
  readStrictly_eq_ok_iff.2 ⟨h, rfl⟩

theorem readStrictly_of_reports_cons {source : String} {r : Report} {more : List Report}
    (h : (scan source).reports = r :: more) (filename : String) :
    readStrictly source filename = .error ⟨.ofReport r⟩ := by
  have he := ({ source, filename } : Session).tokenize_errors
  simp only [h, List.map_cons] at he
  simp only [readStrictly, he]
  rfl

/-! ### Files -/

theorem readText_encoded {source path : String} {d : Directory} (hreturn : '\r' ∉ source.toList)
    (hfile : d.lookup path = some (.file source.toUTF8.data.toList)) :
    d.readText path = .ok source := by
  have htext : decodeText source.toUTF8.data.toList = .ok source := by
    rw [decodeText, Utf8.decode_encode, Except.map, Newline.normalise_eq_self hreturn,
      String.ofList_toList]
  rw [Directory.readText_of_lookup hfile, htext]
  rfl

/-- The name that is given to a text does not count. -/
theorem readFileStrictly_of_readText {source path : String} {d : Directory}
    (h : d.readText path = .ok source) (filename : String) :
    readFileStrictly d path = (readStrictly source filename).mapError .lexical := by
  rw [readFileStrictly, h]
  rfl

/-! ### The command with a script -/

namespace Command

theorem run_script {arguments : List String} {path : String} {verbose : Bool}
    (h : Invocation.parse arguments = .run verbose (some path)) (hpath : path ≠ "")
    (d : Directory) (input : String) :
    run arguments d input = runFile verbose path (d.readText path) := by
  rw [run, h, perform, if_neg hpath]

theorem shown_opening (path : String) : shown false [.opening path] = "" := rfl

theorem runFile_ok (path source : String) :
    runFile false path (.ok source) =
      { stdout := lines ((scan source).tokens.map Token.dumpLine)
        stderr := lines ((scan source).reports.map Report.render)
        ending := .exited (if (scan source).reports = [] then .ok else .dataError) } := by
  have herr : shown false ((scan source).events source) =
      lines ((scan source).reports.map Report.render) := by
    rw [shown, shown_events]
    rfl
  simp only [runFile, printText, shown_opening, String.empty_append, herr, dump,
    Journal.ite_hasErrors_record]

theorem runFile_system (path : String) (e : SystemError) :
    runFile false path (.error (.system e)) =
      { stderr := "error: cannot read " ++ path ++ ": " ++ e.reason ++ "\n"
        ending := .exited .noInput } := by
  simp only [runFile, shown_opening, String.empty_append]

/-- What is no failure of the system cuts the command short before it has printed anything. -/
theorem runFile_interrupted (path : String) {e : ReadError} (h : ∀ error, e ≠ .system error) :
    runFile false path (.error e) = { ending := .interrupted e } := by
  cases e with
  | system error => exact absurd rfl (h error)
  | nullInName => simp only [runFile, shown_opening]
  | undecodable fault => simp only [runFile, shown_opening]

end Command

/-! ### All together -/

/-- All ways to read a text agree, whatever errors it has and however many. A session answers the
tokens whether or not there are errors; a strict reading fails with the first error; the command prints
every token and every error, and its exit status tells which way the strict reading of the file goes.
Of a path that yields no text, neither of the two gives a token: the command tells the failures of the
system, and is cut short by the others. -/
theorem readings_agree (source : String) :
    (∀ filename : String,
      let answer := ({ source, filename } : Session).tokenize
      ∃ ds : List Diagnostic,
        answer.reply = .tokens (scan source).tokens ∧
        (answer.session.respond .errors).reply = .diagnostics ds ∧
        (answer.session.respond .diagnostics).reply = .diagnostics ds ∧
        List.Forall₂ Diagnostic.Records ds (scan source).reports ∧
        (answer.session.journal.hasErrors = true ↔ (scan source).reports ≠ []) ∧
        ((scan source).reports = [] → readStrictly source filename = .ok (scan source).tokens) ∧
        ∀ d more, ds = d :: more →
          ∃ e, readStrictly source filename = .error e ∧ e.line = d.line ∧ e.diagnostic = d) ∧
    ∀ (d : Directory) (path : String),
      (d.lookup path = some (.file source.toUTF8.data.toList) → '\r' ∉ source.toList →
        (∀ filename, readFileStrictly d path = (readStrictly source filename).mapError .lexical) ∧
        ∀ (arguments : List String) (input : String),
          Invocation.parse arguments = .run false (some path) → path ≠ "" →
          let out := Command.run arguments d input
          out.stdout = Command.lines ((scan source).tokens.map Token.dumpLine) ∧
          out.stderr = Command.lines ((scan source).reports.map Report.render) ∧
          ∃ status, out.ending = .exited status ∧
            (status.code = 65 ↔ ∃ e, readFileStrictly d path = .error (.lexical e)) ∧
            (status.code = 0 ↔ ∃ ts, readFileStrictly d path = .ok ts)) ∧
      ∀ e, d.readText path = .error e →
        readFileStrictly d path = .error (.unreadable path e) ∧
        ∀ (arguments : List String) (input : String),
          Invocation.parse arguments = .run false (some path) → path ≠ "" →
          let out := Command.run arguments d input
          out.stdout = "" ∧
          (∀ error, e = .system error →
            out.stderr = "error: cannot read " ++ path ++ ": " ++ error.reason ++ "\n" ∧
            ∃ status, out.ending = .exited status ∧ status.code = 66) ∧
          ((∀ error, e ≠ .system error) → out.stderr = "" ∧ out.ending = .interrupted e) := by
  refine ⟨fun filename => ?session, fun d path => ⟨fun hfile hreturn => ?readable, fun e he => ?unreadable⟩⟩
  case session =>
    refine ⟨(scan source).reports.map .ofReport, rfl, ?_, rfl, Diagnostic.forall₂_records _,
      Journal.hasErrors_record _, fun h => readStrictly_of_reports_nil h filename, ?_⟩
    · exact congrArg Session.Reply.diagnostics (Session.tokenize_errors _)
    · intro d more hd
      obtain ⟨r, rest, hr, rfl, -⟩ := List.map_eq_cons_iff.1 hd
      exact ⟨⟨.ofReport r⟩, readStrictly_of_reports_cons hr filename, rfl, rfl⟩
  case readable =>
    have htext := readText_encoded hreturn hfile
    have hstrict := readFileStrictly_of_readText htext
    refine ⟨hstrict, fun arguments input hparse hpath => ?_⟩
    have hrun := Command.run_script hparse hpath d input
    rw [htext, Command.runFile_ok] at hrun
    simp only [hrun, hstrict path, true_and]
    refine ⟨_, rfl, ?_⟩
    -- status and strict reading both turn on whether there is a first report
    cases hr : (scan source).reports with
    | nil => simp [readStrictly_of_reports_nil hr, Except.mapError, ExitStatus.code]
    | cons r more => simp [readStrictly_of_reports_cons hr, Except.mapError, ExitStatus.code]
  case unreadable =>
    refine ⟨by rw [readFileStrictly, he], fun arguments input hparse hpath => ?_⟩
    have hrun := Command.run_script hparse hpath d input
    rw [he] at hrun
    simp only [hrun]
    by_cases hsystem : ∃ error, e = .system error
    · obtain ⟨error, rfl⟩ := hsystem
      rw [Command.runFile_system]
      refine ⟨rfl, fun error' h => ?_, fun h => absurd rfl (h error)⟩
      rw [← ReadError.system.inj h]
      exact ⟨rfl, .noInput, rfl, rfl⟩
    · have hother := not_exists.1 hsystem
      rw [Command.runFile_interrupted path hother]
      exact ⟨rfl, fun error h => absurd h (hother error), fun _ => ⟨rfl, rfl⟩⟩

/-- A file with a stray character, and a name that stands for nothing. -/
theorem readings_agree_stray :
    let d : Directory := [({ text := "a.lox" }, .file "a @\n".toUTF8.data.toList)]
    Invocation.parse ["a.lox"] = .run false (some "a.lox") ∧
      (∃ e, readStrictly "a @\n" "a.lox" = .error e ∧ e.line = 1) ∧
      (∃ e, readFileStrictly d "a.lox" = .error (.lexical e)) ∧
      (Command.run ["a.lox"] d "").stderr = "[line 1] Error: Unexpected character: '@'.\n" ∧
      (∃ status, (Command.run ["a.lox"] d "").ending = .exited status ∧ status.code = 65) ∧
      d.readText "b.lox" = .error (.system .missing) ∧
      (Command.run ["b.lox"] d "").stderr =
        "error: cannot read b.lox: No such file or directory\n" := by
  intro d
  have hreports : (scan "a @\n").reports = [⟨1, .unexpected '@'⟩] := by decide +kernel
  have hparse : Invocation.parse ["a.lox"] = .run false (some "a.lox") := by decide
  have hparse' : Invocation.parse ["b.lox"] = .run false (some "b.lox") := by decide
  have hreturn : '\r' ∉ "a @\n".toList := by decide
  have hmissing : d.readText "b.lox" = .error (.system .missing) := by decide +kernel
  obtain ⟨hsession, hfiles⟩ := readings_agree "a @\n"
  obtain ⟨ds, -, herrors, -, -, -, -, hfirst⟩ := hsession "a.lox"
  obtain ⟨hstrict, hcommand⟩ := (hfiles d "a.lox").1 rfl hreturn
  obtain ⟨-, hstderr, status, hending, hcode, -⟩ := hcommand ["a.lox"] "" hparse (by decide)
  obtain ⟨-, hrefused⟩ := (hfiles d "b.lox").2 (.system .missing) hmissing
  obtain ⟨-, hreason, -⟩ := hrefused ["b.lox"] "" hparse' (by decide)
  have hds : ds = [.ofReport ⟨1, .unexpected '@'⟩] := by
    have hreply := congrArg Session.Reply.diagnostics
      (Session.tokenize_errors ⟨"a @\n", "a.lox", {}, [], []⟩)
    rw [hreports] at hreply
    exact Session.Reply.diagnostics.inj (herrors.symm.trans hreply)
  obtain ⟨e, he, hline, -⟩ := hfirst _ _ hds
  have hlexical : readFileStrictly d "a.lox" = .error (.lexical e) := by
    rw [hstrict "a.lox", he]
    rfl
  refine ⟨hparse, ⟨e, he, hline⟩, ⟨e, hlexical⟩, ?_, ⟨status, hending, hcode.2 ⟨e, hlexical⟩⟩,
    hmissing, (hreason .missing rfl).1⟩
  rw [hstderr, hreports]
  decide

end LoxFrontEnd
