import LoxFrontEnd.Diagnostic.Journal
import LoxFrontEnd.Proofs.Dump
import LoxFrontEnd.Proofs.Progress
import LoxFrontEnd.Proofs.Segmentation

/-!
# Runs of a journal

A journal that takes any requests holds what was brought to it since it was last cleared. A scan brings
one diagnostic for each faulty piece of its source, with the code and the help text of the class of the
fault; that the class is found from the wording is no loss, since the wordings of the three classes are
apart.
-/

namespace LoxFrontEnd

namespace Journal

/-! ### Requests -/

def Request.brings : Request → List Diagnostic
  | .report line message => [.ofMessage line message]
  | .scan source => (LoxFrontEnd.scan source).reports.map .ofReport
  | .add d => [d]
  | .reset => []

def run (j : Journal) (rs : List Request) : Journal := rs.foldl after j

theorem after_entries (j : Journal) {r : Request} (h : r ≠ .reset) :
    (j.after r).entries = j.entries ++ r.brings := by
  cases r with
  | reset => exact absurd rfl h
  | _ => rfl

theorem run_cons (j : Journal) (r : Request) (rs : List Request) :
    j.run (r :: rs) = (j.after r).run rs := rfl

theorem run_append (j : Journal) (rs rs' : List Request) : j.run (rs ++ rs') = (j.run rs).run rs' :=
  List.foldl_append

theorem run_entries (j : Journal) {rs : List Request} (h : .reset ∉ rs) :
    (j.run rs).entries = j.entries ++ rs.flatMap Request.brings := by
  induction rs generalizing j with
  | nil => exact (List.append_nil _).symm
  | cons r rs ih =>
    have hr : r ≠ .reset := fun he => h (he ▸ List.mem_cons_self)
    have hrs : .reset ∉ rs := fun hm => h (List.mem_cons_of_mem r hm)
    rw [run_cons, ih _ hrs, after_entries j hr, List.flatMap_cons, List.append_assoc]

theorem run_entries_of_reset (j : Journal) (before : List Request) {later : List Request}
    (h : .reset ∉ later) :
    (j.run (before ++ .reset :: later)).entries = later.flatMap Request.brings := by
  rw [run_append, run_cons, run_entries _ h]
  rfl

theorem forall_run_entries {holds : Diagnostic → Prop} {j : Journal} {rs : List Request}
    (hj : ∀ d ∈ j.entries, holds d) (hrs : ∀ r ∈ rs, ∀ d ∈ r.brings, holds d) :
    ∀ d ∈ (j.run rs).entries, holds d := by
  induction rs generalizing j with
  | nil => exact hj
  | cons r rs ih =>
    obtain ⟨hr, hrs⟩ := List.forall_mem_cons.1 hrs
    refine ih ?_ hrs
    by_cases hreset : r = .reset
    · rw [hreset]
      exact List.forall_mem_nil _
    · rw [after_entries j hreset]
      exact List.forall_mem_append.2 ⟨hj, hr⟩

theorem hasErrors_iff (j : Journal) :
    j.hasErrors = true ↔ ∃ d ∈ j.entries, d.severity = "error" := by
  simp only [hasErrors, List.any_eq_true, Diagnostic.isError, beq_iff_eq]

theorem hasErrors_run (j : Journal) {rs : List Request} (h : .reset ∉ rs) (hj : j.hasErrors = true) :
    (j.run rs).hasErrors = true := by
  obtain ⟨d, hd, hseverity⟩ := j.hasErrors_iff.1 hj
  refine (hasErrors_iff _).2 ⟨d, ?_, hseverity⟩
  rw [run_entries j h]
  exact List.mem_append_left _ hd

end Journal

/-! ### The diagnostics of a scan -/

/-- The diagnostic names the fault of a piece: its message, its code and its help text. -/
def Diagnostic.Explains (d : Diagnostic) (piece : Piece) : Prop :=
  match piece.element with
  | .fault (.unexpected c) =>
    piece.text = [c] ∧ d.message = "Unexpected character: '" ++ String.ofList [c] ++ "'." ∧
      d.code = some "L001" ∧ d.help = none
  | .fault .unterminatedString =>
    d.message = "Unterminated string." ∧ d.code = some "L002" ∧
      d.help = some "String literals must be closed with a matching '\"'."
  | .fault .unterminatedComment =>
    d.message = "Unterminated comment." ∧ d.code = some "L003" ∧
      d.help = some "Every '/*' needs a matching '*/', including nested ones."
  | _ => False

theorem Diagnostic.ofReport_code (r : Report) :
    (ofReport r).code = some (DiagnosticCode.ofFault r.fault).id ∧
      (ofReport r).help = (DiagnosticCode.ofFault r.fault).help? := by
  have hclass : DiagnosticCode.ofMessage? r.message = some (DiagnosticCode.ofFault r.fault) :=
    DiagnosticCode.ofMessage?_message r.fault
  simp only [ofReport, ofMessage, hclass]
  exact ⟨rfl, rfl⟩

theorem forall₂_explains {ps : List Piece} {p : Position}
    (hu : ∀ piece ∈ ps, ∀ c, piece.element = .fault (.unexpected c) → piece.text = [c]) :
    List.Forall₂ Diagnostic.Explains ((reportsFrom p ps).map .ofReport)
      (ps.filter Piece.isFaulty) := by
  induction ps generalizing p with
  | nil => exact .nil
  | cons piece more ih =>
    have hmore := ih (p := p.after piece.text) fun q hq => hu q (List.mem_cons_of_mem _ hq)
    rw [reportsFrom, Piece.report?]
    split
    · next fault he =>
      obtain ⟨hcode, hhelp⟩ := Diagnostic.ofReport_code ⟨(p.after piece.text).line, fault⟩
      rw [List.filter_cons_of_pos (by simp [Piece.isFaulty, he])]
      refine .cons ?_ hmore
      rw [Diagnostic.Explains, he]
      cases fault with
      | unexpected c => exact ⟨hu piece List.mem_cons_self c he, rfl, hcode, hhelp⟩
      | unterminatedString => exact ⟨rfl, hcode, hhelp⟩
      | unterminatedComment => exact ⟨rfl, hcode, hhelp⟩
    · next hne =>
      have hclean : ¬piece.isFaulty = true := by
        unfold Piece.isFaulty
        split
        · next fault he => exact absurd he (hne fault)
        · simp
      rw [List.filter_cons_of_neg hclean]
      exact hmore

/-- What is left open takes the rest of the source, so no report comes after it. -/
theorem reportsFrom_eq_nil_of_open {text : List Char} {p : Position} {before after : List Report}
    {r : Report} (h : reportsFrom p (pieces text) = before ++ r :: after)
    (hr : ∀ c, r.fault ≠ .unexpected c) : after = [] := by
  fun_induction pieces text generalizing p before with
  | case1 => exact absurd h.symm (List.append_ne_nil_of_right_ne_nil _ (List.cons_ne_nil _ _))
  | case2 c rest ih =>
    have hcut : Cut.of? (c :: rest) = some (Cut.first c rest) := rfl
    rw [reportsFrom, Piece.report?] at h
    split at h
    · next fault he =>
      rw [Option.toList_some, List.singleton_append] at h
      cases before with
      | nil =>
        obtain ⟨rfl, hmore⟩ := List.cons.inj h
        rw [Cut.rest_of_unterminated hcut he hr, pieces_nil] at hmore
        exact hmore.symm
      | cons first before => exact ih (List.cons.inj h).2
    · exact ih h

theorem open_of_code {r : Report}
    (h : (Diagnostic.ofReport r).code = some "L002" ∨ (Diagnostic.ofReport r).code = some "L003") :
    ∀ c, r.fault ≠ .unexpected c := by
  intro c hc
  rw [(Diagnostic.ofReport_code r).1, hc] at h
  simp [DiagnosticCode.ofFault, DiagnosticCode.id] at h

/-! ### Formats -/

def linesBetween (text : List Char) : List (List Char) :=
  if text = [] then [] else text.splitOn '\n'

theorem Journal.toList_format (j : Journal) :
    j.format.toList = ['\n'].intercalate (j.entries.map fun d => d.summary.toList) := by
  rw [format, String.toList_intercalate, List.map_map]
  rfl

theorem Diagnostic.summary_ne_nil (d : Diagnostic) : d.summary.toList ≠ [] := by
  simp [summary]

theorem Journal.linesBetween_format {j : Journal} (h : ∀ d ∈ j.entries, '\n' ∉ d.summary.toList) :
    linesBetween j.format.toList = j.entries.map fun d => d.summary.toList := by
  rw [linesBetween, j.toList_format]
  cases he : j.entries with
  | nil => rfl
  | cons d more =>
    rw [he] at h
    have hsplit : (['\n'].intercalate ((d :: more).map fun d => d.summary.toList)).splitOn '\n' =
        (d :: more).map fun d => d.summary.toList :=
      List.splitOn_intercalate '\n' (List.forall_mem_map.2 h) (List.cons_ne_nil _ _)
    rw [if_neg, hsplit]
    intro hempty
    rw [hempty] at hsplit
    exact d.summary_ne_nil (List.cons.inj hsplit).1.symm

/-! ### Runs -/

/-- A journal holds, in order, what requests brought to it since it was last cleared. A reading with the
journal as its sink finds the tokens that a reading with any other sink finds, and brings one diagnostic
for each faulty piece of the source, with the code of its class and the help text that belongs to it; only
the last can be of what was left open. Errors stay until the journal is cleared, and a journal that only
scans were brought to shows one line for each diagnostic. -/
theorem journal_runs (j : Journal) :
    (∀ later, .reset ∉ later →
      (j.run later).entries = j.entries ++ later.flatMap Journal.Request.brings) ∧
    (∀ before later, .reset ∉ later →
      (j.run (before ++ .reset :: later)).entries = later.flatMap Journal.Request.brings) ∧
    (∀ source,
      (∀ tokens state, Cursor.EndsWith source Journal.report j tokens state ↔
        tokens = (scan source).tokens ∧ state = j.after (.scan source)) ∧
      (∀ (σ : Type) (emit : σ → Int → String → σ) (sink : σ) (tokens : List Token) (state : σ),
        Cursor.EndsWith source emit sink tokens state → tokens = (scan source).tokens) ∧
      (∃ ps, (∀ qs, Segmentation source.toList qs ↔ qs = ps) ∧
        List.Forall₂ Diagnostic.Explains (Journal.Request.scan source).brings
          (ps.filter Piece.isFaulty)) ∧
      ∀ before d after, (Journal.Request.scan source).brings = before ++ d :: after →
        d.code = some "L002" ∨ d.code = some "L003" → after = []) ∧
    (j.hasErrors = true ↔ ∃ d ∈ j.entries, d.severity = "error") ∧
    (∀ later, .reset ∉ later → j.hasErrors = true → (j.run later).hasErrors = true) ∧
    ∀ rs, (∀ r ∈ rs, r = .reset ∨ ∃ source, r = .scan source) →
      linesBetween (({} : Journal).run rs).format.toList =
        (({} : Journal).run rs).entries.map fun d =>
          ("[line " ++ toString d.line ++ "] Error: " ++ d.message).toList := by
  refine ⟨fun later h => j.run_entries h, fun before later h => j.run_entries_of_reset before h,
    fun source => ⟨fun tokens state => ?sink, fun σ emit sink tokens state h => ?other,
      ⟨pieces source.toList, fun qs => segmentation_iff, ?explained⟩,
      fun before d after h hcode => ?last⟩,
    j.hasErrors_iff, fun later h hj => j.hasErrors_run h hj, fun rs h => ?lines⟩
  case sink =>
    rw [Cursor.endsWith_iff, Cursor.scanned, j.foldl_report, Prod.mk.injEq]
    rfl
  case other => exact congrArg Prod.fst ((Cursor.endsWith_iff source emit sink).1 h)
  case explained =>
    exact forall₂_explains fun piece hp c hc => (text_of_mem_pieces_unexpected hp hc).1
  case last =>
    obtain ⟨earlier, more, hreports, rfl, hmore⟩ := List.map_eq_append_iff.1 h
    obtain ⟨r, later, rfl, rfl, rfl⟩ := List.map_eq_cons_iff.1 hmore
    rw [reportsFrom_eq_nil_of_open hreports (open_of_code hcode), List.map_nil]
  case lines =>
    refine Journal.linesBetween_format (Journal.forall_run_entries (List.forall_mem_nil _) ?_)
    intro r hr d hd
    rcases h r hr with rfl | ⟨source, rfl⟩
    · exact absurd hd List.not_mem_nil
    · obtain ⟨report, hreport, rfl⟩ := List.mem_map.1 hd
      exact newline_notMem_render hreport

/-- A journal that is cleared, takes a scan with two faults and then a warning. -/
theorem journal_runs_warning :
    let later : List Journal.Request :=
      [.scan "@\n\"a", .add { message := "w", line := 9, severity := "warning" }]
    .reset ∉ later ∧
      (({} : Journal).run ([.report 4 "y"] ++ .reset :: later)).entries.map
          (fun d => (d.line, d.message, d.code)) =
        [(1, "Unexpected character: '@'.", some "L001"), (2, "Unterminated string.", some "L002"),
          (9, "w", none)] ∧
      ((({} : Journal).report 4 "y").run later).hasErrors = true ∧
      linesBetween (({} : Journal).run [.scan "@\n\"a"]).format.toList =
        ["[line 1] Error: Unexpected character: '@'.".toList,
          "[line 2] Error: Unterminated string.".toList] := by
  intro later
  have hlater : .reset ∉ later := by decide
  have hreports : (scan "@\n\"a").reports = [⟨1, .unexpected '@'⟩, ⟨2, .unterminatedString⟩] := by
    decide +kernel
  obtain ⟨-, hcleared, -, -, -, hlines⟩ := journal_runs {}
  obtain ⟨-, -, -, -, hkept, -⟩ := journal_runs (({} : Journal).report 4 "y")
  refine ⟨hlater, ?_, hkept later hlater rfl, ?_⟩
  · rw [hcleared [.report 4 "y"] later hlater]
    simp only [later, List.flatMap_cons, Journal.Request.brings, hreports]
    decide
  · rw [hlines [.scan "@\n\"a"] (List.forall_mem_singleton.2 (.inr ⟨_, rfl⟩))]
    simp only [Journal.run, List.foldl_cons, List.foldl_nil, Journal.after, Journal.record, hreports]
    decide

end LoxFrontEnd
