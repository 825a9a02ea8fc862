import LoxFrontEnd.Proofs.Agreement
import LoxFrontEnd.Proofs.Concatenation
import LoxFrontEnd.Proofs.Content

/-!
# Sessions at the prompt

A session at the prompt answers one line after the other and keeps a journal between them. The journal
is cleared after every line, so each line finds it empty and is answered as if it were the only one.
A line has no newline in it, so all that is said of it is said of line one.
-/

namespace LoxFrontEnd

/-! ### Texts of one line -/

theorem Position.after_line {text : List Char} (h : '\n' ∉ text) (p : Position) :
    (p.after text).line = p.line := by
  rw [after, List.count_eq_zero.2 h]
  exact Int.add_zero _

theorem line_of_mem_tokensFrom_line {p : Position} {ps : List Piece} {t : Token}
    (h : '\n' ∉ ps.flatMap Piece.text) (ht : t ∈ tokensFrom p ps) : t.line = p.line := by
  induction ps generalizing p with
  | nil => contradiction
  | cons piece more ih =>
    rw [List.flatMap_cons, List.mem_append, not_or] at h
    rw [tokensFrom, List.mem_append, Option.mem_toList] at ht
    rcases ht with ht | ht
    · rw [Piece.token?] at ht
      split at ht
      · cases ht
        rfl
      · contradiction
    · rw [ih h.2 ht, Position.after_line h.1]

theorem line_of_mem_reportsFrom_line {p : Position} {ps : List Piece} {r : Report}
    (h : '\n' ∉ ps.flatMap Piece.text) (hr : r ∈ reportsFrom p ps) : r.line = p.line := by
  induction ps generalizing p with
  | nil => contradiction
  | cons piece more ih =>
    rw [List.flatMap_cons, List.mem_append, not_or] at h
    rw [reportsFrom, List.mem_append, Option.mem_toList] at hr
    rcases hr with hr | hr
    · rw [Piece.report?] at hr
      split at hr
      · cases hr
        exact Position.after_line h.1 p
      · contradiction
    · rw [ih h.2 hr, Position.after_line h.1]

section

variable {line : String}

theorem scan_body_line (h : '\n' ∉ line.toList) : ∀ t ∈ (scan line).body, t.line = 1 := by
  rw [← flatMap_text_pieces line.toList] at h
  exact fun t ht => line_of_mem_tokensFrom_line h ht

theorem scan_reports_line (h : '\n' ∉ line.toList) : ∀ r ∈ (scan line).reports, r.line = 1 := by
  rw [← flatMap_text_pieces line.toList] at h
  exact fun r hr => line_of_mem_reportsFrom_line h hr

theorem scan_finish_line (h : '\n' ∉ line.toList) : (scan line).finish.line = 1 :=
  Position.after_line h {}

end

/-! ### What is printed -/

theorem Lexeme.ne_endOfInput {kind : Kind} {text : List Char} (h : Lexeme kind text) :
    kind ≠ .endOfInput := by
  cases h with
  | single hm =>
    have hall : ∀ p ∈ Kind.singles, p.2 ≠ .endOfInput := by decide
    exact hall _ hm
  | slash => decide
  | plain hm =>
    have hall : ∀ p ∈ Kind.equalSuffixed, p.2.1 ≠ .endOfInput := by decide
    exact hall _ hm
  | withEqual hm =>
    have hall : ∀ p ∈ Kind.equalSuffixed, p.2.2 ≠ .endOfInput := by decide
    exact hall _ hm
  | whole _ _ => decide
  | decimal _ _ _ _ => decide
  | word _ _ hk =>
    intro he
    rw [he] at hk
    exact hk
  | string _ => decide

theorem name_ne_of_mem_body {source : String} {t : Token} (h : t ∈ (scan source).body) :
    t.kind.name ≠ "EOF" := by
  intro hn
  exact (exists_lexeme_of_mem_tokensFrom h).1.ne_endOfInput (Kind.name_injective hn)

theorem dumpLine_endOfInput {p : Position} (h : p.line = 1) :
    (Token.endOfInput p).dumpLine = "EOF\t''\t\t(line 1)" := by
  simp only [Token.dumpLine, Token.endOfInput, h]
  decide

theorem Report.render_of_line (r : Report) (h : r.line = 1) :
    r.render = "[line 1] Error: " ++ r.message := by
  have hhead : "[line " ++ toString (1 : Int) ++ "] Error: " = "[line 1] Error: " := by decide
  rw [render, h, hhead]

/-! ### Answers -/

namespace Command

/-- What a line is answered with when nothing came before it. -/
def answer (verbose : Bool) (line : String) : Printed := printText verbose {} line

theorem answer_stdout (verbose : Bool) {line : String} (h : '\n' ∉ line.toList) :
    (answer verbose line).stdout =
      lines ((scan line).body.map Token.dumpLine ++ ["EOF\t''\t\t(line 1)"]) := by
  have hend := dumpLine_endOfInput (scan_finish_line h)
  rw [answer, printText, dump, Scan.tokens, List.map_append, List.map_singleton, hend]

theorem answer_events (verbose : Bool) {line : String} (h : '\n' ∉ line.toList) :
    (answer verbose line).stderr =
      shown verbose
        (.scanning line.length ::
          (((scan line).reports.map fun r => .reported 1 r.message) ++
            [.finished (scan line).tokens.length 1])) := by
  have hreported : ((scan line).reports.map fun r => LogEvent.reported r.line r.message) =
      (scan line).reports.map fun r => .reported 1 r.message :=
    List.map_congr_left fun r hr => by rw [scan_reports_line h r hr]
  rw [answer, printText, Scan.events, hreported, scan_finish_line h]

theorem answer_stderr {line : String} (h : '\n' ∉ line.toList) :
    (answer false line).stderr =
      lines ((scan line).reports.map fun r => "[line 1] Error: " ++ r.message) := by
  rw [answer, printText, shown, shown_events]
  refine congrArg lines (List.map_congr_left fun r hr => ?_)
  exact r.render_of_line (scan_reports_line h r hr)

/-- Clearing the journal leaves nothing of a line for the next one. -/
theorem exchanges_eq_answers (verbose : Bool) (input : List String) :
    exchanges verbose {} input = input.map fun line => ⟨{}, answer verbose line⟩ :=
  exchanges_eq_map verbose input

theorem map_printed_exchanges (verbose : Bool) (input : List String) :
    (exchanges verbose {} input).map Exchange.printed = input.map (answer verbose) := by
  rw [exchanges_eq_answers, List.map_map]
  rfl

end Command

/-- Sessions at the prompt. Every line finds the journal empty and is answered as if it were the only
one, whatever lines came before it, and after the last the command ends well. The answer to a line shows
its tokens, then one end of the input, and its reports, all of them on line one; a verbose session shows
the two other events of the scan around them. -/
theorem prompt_sessions (verbose : Bool) :
    (∀ input : List String,
      (∀ e ∈ Command.exchanges verbose {} input, e.found = {}) ∧
      (Command.exchanges verbose {} input).map Command.Exchange.printed =
        input.map (Command.answer verbose) ∧
      let out := Command.runPrompt verbose input
      out.stdout =
        String.join (input.map fun line => "> " ++ (Command.answer verbose line).stdout) ++ "> \n" ∧
      out.stderr = String.join (input.map fun line => (Command.answer verbose line).stderr) ∧
      ∃ status, out.ending = .exited status ∧ status.code = 0) ∧
    ∀ line : String, '\n' ∉ line.toList →
      (Command.answer verbose line).stdout =
        Command.lines ((scan line).body.map Token.dumpLine ++ ["EOF\t''\t\t(line 1)"]) ∧
      (∀ t ∈ (scan line).body, t.kind.name ≠ "EOF" ∧ t.line = 1) ∧
      (verbose = false →
        (Command.answer verbose line).stderr =
          Command.lines ((scan line).reports.map fun r => "[line 1] Error: " ++ r.message)) ∧
      (Command.answer verbose line).stderr =
        Command.shown verbose
          (.scanning line.length ::
            (((scan line).reports.map fun r => .reported 1 r.message) ++
              [.finished (scan line).tokens.length 1])) := by
  refine ⟨fun input => ⟨?_, Command.map_printed_exchanges verbose input, ?_, ?_, .ok, rfl, rfl⟩,
    fun line h => ⟨Command.answer_stdout verbose h, fun t ht => ?_, fun hv => ?_,
      Command.answer_events verbose h⟩⟩
  · intro e he
    rw [Command.exchanges_eq_answers] at he
    obtain ⟨line, -, rfl⟩ := List.mem_map.1 he
    rfl
  · rw [Command.runPrompt, Command.map_printed_exchanges, List.map_map, String.append_assoc]
    rfl
  · rw [Command.runPrompt, Command.map_printed_exchanges]
    exact congrArg String.join List.map_map
  · exact ⟨name_ne_of_mem_body ht, scan_body_line h t ht⟩
  · subst hv
    exact Command.answer_stderr h

/-- What is left open on a line is not open on the next. -/
theorem prompt_sessions_open :
    let input := ["a \"", "/* @", "c @"]
    (∀ line ∈ input, '\n' ∉ line.toList) ∧
    (Command.runPrompt false input).stderr =
      "[line 1] Error: Unterminated string.\n[line 1] Error: Unterminated comment.\n" ++
        "[line 1] Error: Unexpected character: '@'.\n" ∧
    (Command.answer false "c @").stdout = "IDENTIFIER\t'c'\t\t(line 1)\nEOF\t''\t\t(line 1)\n" := by
  intro input
  have hlines : ∀ line ∈ input, '\n' ∉ line.toList := by decide
  have hanswer := (prompt_sessions false).2
  obtain ⟨-, -, -, hstderr, -⟩ := (prompt_sessions false).1 input
  have hfirst : (scan "a \"").reports = [⟨1, .unterminatedString⟩] := by decide +kernel
  have hsecond : (scan "/* @").reports = [⟨1, .unterminatedComment⟩] := by decide +kernel
  have hthird : (scan "c @").reports = [⟨1, .unexpected '@'⟩] := by decide +kernel
  have hbody : (scan "c @").body = [{ kind := .identifier, lexeme := "c", literal := none, line := 1 }] := by
    decide +kernel
  refine ⟨hlines, ?_, ?_⟩
  · rw [hstderr]
    simp only [input, List.map_cons, List.map_nil]
    rw [(hanswer "a \"" (hlines _ (by decide))).2.2.1 rfl, hfirst,
      (hanswer "/* @" (hlines _ (by decide))).2.2.1 rfl, hsecond,
      (hanswer "c @" (hlines _ (by decide))).2.2.1 rfl, hthird]
    decide
  · rw [(hanswer "c @" (hlines _ (by decide))).1, hbody]
    decide

end LoxFrontEnd
