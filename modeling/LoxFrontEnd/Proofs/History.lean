import LoxFrontEnd.Proofs.KeptLists

/-!
# The history of a session

Every scan starts afresh. A session that is handed any requests keeps from what came before a scan the
source and the name that were set last, and nothing else; what comes after the scan is added to its
diagnostics in order, and lists that were kept stay as they were. Each fact about a run of requests
comes from what one request does.
-/

namespace LoxFrontEnd

/-! ### The journal of one scan -/

theorem Journal.hasErrors_record (s : Scan) :
    (({} : Journal).record s).hasErrors = true ↔ s.reports ≠ [] := by
  have he : (({} : Journal).record s).errors = s.reports.map .ofReport := errors_record {} s
  rw [hasErrors_eq, he]
  cases s.reports with
  | nil => simp
  | cons r more => simp

/-- What is done on errors is done on reports. -/
theorem Journal.ite_hasErrors_record {α : Type} (s : Scan) (faulty clean : α) :
    (if (({} : Journal).record s).hasErrors then faulty else clean) =
      if s.reports = [] then clean else faulty := by
  have hiff := hasErrors_record s
  by_cases hr : s.reports = []
  · rw [if_pos hr, if_neg fun h => hiff.1 h hr]
  · rw [if_neg hr, if_pos (hiff.2 hr)]

namespace Session

/-! ### What requests carry -/

namespace Request

def source? : Request → Option String
  | .setSource source => some source
  | _ => none

def filename? : Request → Option String
  | .setFilename filename => some filename
  | _ => none

/-- The diagnostic that a request brings along; a scan brings none but its own. -/
def diagnostic? : Request → Option Diagnostic
  | .report line message => some (.ofMessage line message)
  | .add d => some d
  | _ => none

end Request

def lastAssigned {α : Type} (assigned : Request → Option α) (initial : α) (rs : List Request) : α :=
  (rs.filterMap assigned).getLast?.getD initial

theorem lastAssigned_cons {α : Type} (assigned : Request → Option α) (initial : α) (r : Request)
    (rs : List Request) :
    lastAssigned assigned initial (r :: rs) =
      lastAssigned assigned ((assigned r).getD initial) rs := by
  cases hr : assigned r with
  | none => rw [lastAssigned, List.filterMap_cons_none hr, Option.getD_none, lastAssigned]
  | some a =>
    rw [lastAssigned, List.filterMap_cons_some hr, List.getLast?_cons, Option.getD_some,
      Option.getD_some, lastAssigned]

/-! ### One request -/

theorem respond_source (s : Session) (r : Request) :
    (s.respond r).session.source = r.source?.getD s.source := by cases r <;> rfl

theorem respond_filename (s : Session) (r : Request) :
    (s.respond r).session.filename = r.filename?.getD s.filename := by cases r <;> rfl

theorem respond_tokens (s : Session) {r : Request} (h : r ≠ .tokenize) :
    (s.respond r).session.tokens = s.tokens := by
  cases r with
  | tokenize => exact absurd rfl h
  | _ => rfl

theorem respond_entries (s : Session) {r : Request} (h : r ≠ .tokenize) :
    (s.respond r).session.journal.entries = s.journal.entries ++ r.diagnostic?.toList := by
  cases r with
  | tokenize => exact absurd rfl h
  | report line message => rfl
  | add d => rfl
  | _ => exact (List.append_nil _).symm

theorem respond_kept (s : Session) (r : Request) : s.kept <+: (s.respond r).session.kept := by
  cases r with
  | keep => exact List.prefix_append _ _
  | _ => exact List.prefix_rfl

theorem tokenize_errors (s : Session) :
    s.tokenize.session.journal.errors = (scan s.source).reports.map .ofReport :=
  Journal.errors_record {} (scan s.source)

/-! ### Runs of requests -/

theorem after_cons (s : Session) (r : Request) (rs : List Request) :
    s.after (r :: rs) = (s.respond r).session.after rs := rfl

/-- A field that requests can only assign holds the value assigned last. -/
theorem after_assigned {α : Type} {field : Session → α} {assigned : Request → Option α}
    (hstep : ∀ s r, field (s.respond r).session = (assigned r).getD (field s)) (s : Session)
    (rs : List Request) : field (s.after rs) = lastAssigned assigned (field s) rs := by
  induction rs generalizing s with
  | nil => rfl
  | cons r rs ih => rw [after_cons, ih, hstep, lastAssigned_cons]

theorem after_source (s : Session) (rs : List Request) :
    (s.after rs).source = lastAssigned Request.source? s.source rs :=
  after_assigned respond_source s rs

theorem after_filename (s : Session) (rs : List Request) :
    (s.after rs).filename = lastAssigned Request.filename? s.filename rs :=
  after_assigned respond_filename s rs

theorem after_tokens (s : Session) {rs : List Request} (h : .tokenize ∉ rs) :
    (s.after rs).tokens = s.tokens := by
  induction rs generalizing s with
  | nil => rfl
  | cons r rs ih =>
    obtain ⟨hr, hrs⟩ := List.ne_and_not_mem_of_not_mem_cons h
    rw [after_cons, ih _ hrs, respond_tokens s hr.symm]

theorem after_kept (s : Session) (rs : List Request) : s.kept <+: (s.after rs).kept := by
  induction rs generalizing s with
  | nil => exact List.prefix_rfl
  | cons r rs ih => exact (s.respond_kept r).trans (ih _)

theorem reply_kept (s : Session) (later : List Request) :
    ((s.after (.keep :: later)).respond (.kept s.kept.length)).reply =
      (s.respond .diagnostics).reply := by
  obtain ⟨more, hmore⟩ := after_kept (s.respond .keep).session later
  have hlist : (s.after (.keep :: later)).kept[s.kept.length]? = some s.journal.entries := by
    rw [after_cons, ← hmore]
    simp [respond]
  simp only [respond, hlist, Option.map_some, Option.getD_some]

theorem after_entries (s : Session) {rs : List Request} (h : .tokenize ∉ rs) :
    (s.after rs).journal.entries = s.journal.entries ++ rs.filterMap Request.diagnostic? := by
  induction rs generalizing s with
  | nil => exact (List.append_nil _).symm
  | cons r rs ih =>
    obtain ⟨hr, hrs⟩ := List.ne_and_not_mem_of_not_mem_cons h
    rw [after_cons, ih _ hrs, respond_entries s hr.symm, List.append_assoc]
    cases hd : r.diagnostic? with
    | none => rw [List.filterMap_cons_none hd, Option.toList_none, List.nil_append]
    | some d => rw [List.filterMap_cons_some hd, Option.toList_some, List.singleton_append]

/-! ### What a session shows -/

/-- A session holds these diagnostics and tokens, and answers accordingly. -/
structure Shows (s : Session) (entries : List Diagnostic) (tokens : List Token) : Prop where
  entries_eq : s.journal.entries = entries
  tokens_eq : s.tokens = tokens
  diagnostics_reply : (s.respond .diagnostics).reply = .diagnostics entries
  errors_reply :
    (s.respond .errors).reply = .diagnostics (entries.filter fun d => d.severity = "error")
  hasErrors_iff :
    s.journal.hasErrors = true ↔ (entries.filter fun d => d.severity = "error") ≠ []

theorem shows_self (s : Session) : s.Shows s.journal.entries s.tokens where
  entries_eq := rfl
  tokens_eq := rfl
  diagnostics_reply := rfl
  errors_reply := rfl
  hasErrors_iff := by
    rw [Journal.hasErrors_eq, Bool.not_eq_true', List.isEmpty_eq_false_iff]
    rfl

theorem after_shows (s : Session) {later : List Request} (h : .tokenize ∉ later) :
    (s.after later).Shows (s.journal.entries ++ later.filterMap Request.diagnostic?) s.tokens := by
  have hself := (s.after later).shows_self
  rwa [after_entries s h, after_tokens s h] at hself

/-! ### The log of a scan -/

theorem tokenize_log (s : Session) :
    s.tokenize.log.map (fun e => (e.level, e.text)) =
      [(.debug, "Scanning " ++ toString s.source.length ++ " characters")] ++
      (scan s.source).reports.map
        (fun r => (.error, "[line " ++ toString r.line ++ "] Error: " ++ r.message)) ++
      [(.debug, "Scan finished: " ++ toString (scan s.source).tokens.length ++ " tokens, " ++
        toString (scan s.source).finish.line ++ " lines")] ++
      if (scan s.source).reports = [] then []
      else [(.debug, s.filename ++ ": " ++ toString (scan s.source).reports.length ++
        " lexical error(s)")] := by
  have hcount : (({} : Journal).record (scan s.source)).errors.length =
      (scan s.source).reports.length := by
    rw [show (({} : Journal).record (scan s.source)).errors = _ from s.tokenize_errors,
      List.length_map]
  have hlog : s.tokenize.log = (scan s.source).events s.source ++
      if (scan s.source).reports = [] then []
      else [.faulty s.filename (scan s.source).reports.length] := by
    rw [← hcount, ← Journal.ite_hasErrors_record]
    rfl
  rw [hlog, List.map_append, Scan.events, List.map_cons, List.map_append, List.map_map]
  by_cases hr : (scan s.source).reports = []
  · rw [if_pos hr, if_pos hr]
    rfl
  · rw [if_neg hr, if_neg hr]
    rfl

/-! ### History -/

/-- Sessions are free of history. After any requests, a scan answers with the source set last and logs
under the name set last, whatever was scanned, reported or added before; until the next scan, what the
session shows is that scan's diagnostics with the later ones behind them, and that scan's tokens. Every
list that was kept is told as it was when it was kept. In memory it all comes to the same: the journal
is changed where it stands, and a list that was handed out is never changed again. -/
theorem session_history (s : Session) (before : List Request) :
    (∀ later, .tokenize ∉ later →
      (s.after later).Shows (s.journal.entries ++ later.filterMap Request.diagnostic?) s.tokens) ∧
    (let source := lastAssigned Request.source? s.source before
      let filename := lastAssigned Request.filename? s.filename before
      let scanned := scan source
      let answer := (s.after before).respond .tokenize
      answer.reply = .tokens scanned.tokens ∧
      (∀ later, .tokenize ∉ later →
        (s.after (before ++ .tokenize :: later)).Shows
          (scanned.reports.map .ofReport ++ later.filterMap Request.diagnostic?)
          scanned.tokens) ∧
      ∃ last, scanned.tokens.getLast? = some last ∧ last.kind = .endOfInput ∧
        answer.log.map (fun e => (e.level, e.text)) =
          [(.debug, "Scanning " ++ toString source.length ++ " characters")] ++
          scanned.reports.map
            (fun r => (.error, "[line " ++ toString r.line ++ "] Error: " ++ r.message)) ++
          [(.debug, "Scan finished: " ++ toString scanned.tokens.length ++ " tokens, " ++
            toString last.line ++ " lines")] ++
          if scanned.reports = [] then []
          else [(.debug, filename ++ ": " ++ toString scanned.reports.length ++
            " lexical error(s)")]) ∧
    (∀ later,
      ((s.after (before ++ .keep :: later)).respond (.kept (s.after before).kept.length)).reply =
        ((s.after before).respond .diagnostics).reply) ∧
    ∀ source filename,
      let m := (SessionStore.new source filename).after before
      m.session = ({ source, filename } : Session).after before ∧
      (∀ r, (m.respond r).told = m.session.respond r) ∧
      ∀ later, (m.diagnostics.1.after later).memory.read m.diagnostics.2 = m.session.journal.entries := by
  refine ⟨fun later h => after_shows s h, ?scan, fun later => ?kept, fun source filename => ?memory⟩
  case scan =>
    intro source filename scanned answer
    have hsource : (s.after before).source = source := after_source s before
    have hfilename : (s.after before).filename = filename := after_filename s before
    refine ⟨?_, fun later h => ?_, Token.endOfInput scanned.finish, List.getLast?_concat, rfl, ?_⟩
    · exact congrArg (fun text => Reply.tokens (scan text).tokens) hsource
    · -- the scan clears the journal, so nothing of `before` is left but the source
      have hshows := after_shows (s.after before).tokenize.session h
      rw [tokenize_entries, tokenize_tokens, hsource] at hshows
      rw [after_append]
      exact hshows
    · have hlog := tokenize_log (s.after before)
      rw [hsource, hfilename] at hlog
      exact hlog
  case kept =>
    rw [after_append]
    exact (s.after before).reply_kept later
  case memory =>
    obtain ⟨hseparate, hsession⟩ := (SessionStore.separate_new source filename).after before
    exact ⟨hsession, hseparate.told_respond, hseparate.read_handOut _⟩

/-- A session that was used before: only the source and the name that were set last remain of it, and
the lists that were kept. -/
theorem session_history_reused :
    let s : Session := { source := "n" }
    let before : List Request :=
      [.keep, .tokenize, .report 3 "x", .setSource "a @", .setFilename "b"]
    let later : List Request :=
      [.add { message := "w", line := 2, severity := "warning" }, .report 7 "y", .keep, .setSource "c"]
    let m := (SessionStore.new "n" "a").after before
    .tokenize ∉ later ∧
      ((s.after before).respond .tokenize).log.map LogEvent.text =
        ["Scanning 3 characters", "[line 1] Error: Unexpected character: '@'.",
          "Scan finished: 2 tokens, 1 lines", "b: 1 lexical error(s)"] ∧
      (s.after (before ++ .tokenize :: later)).journal.entries.map Diagnostic.message =
        ["Unexpected character: '@'.", "w", "y"] ∧
      (s.after (before ++ .tokenize :: later)).tokens.map Token.lexeme = ["a", ""] ∧
      ((s.after (before ++ .keep :: .tokenize :: later)).respond (.kept 1)).reply =
        .diagnostics [.ofMessage 3 "x"] ∧
      (m.diagnostics.1.after (.tokenize :: later)).memory.read m.diagnostics.2 = [.ofMessage 3 "x"] := by
  intro s before later m
  have hscan : .tokenize ∉ later := by decide
  have htokens : (scan "a @").tokens.map Token.lexeme = ["a", ""] := by decide +kernel
  have hlength : (scan "a @").tokens.length = 2 := by decide +kernel
  have hreports : (scan "a @").reports = [⟨1, .unexpected '@'⟩] := by decide +kernel
  have hline : (scan "a @").tokens.getLast?.map Token.line = some 1 := by decide +kernel
  obtain ⟨-, ⟨-, hshows, last, hlast, -, hlog⟩, hkept, hmemory⟩ := session_history s before
  obtain ⟨hsession, -, hread⟩ := hmemory "n" "a"
  have hone : last.line = 1 := by
    rw [show lastAssigned Request.source? s.source before = "a @" from rfl] at hlast
    rw [hlast] at hline
    exact Option.some.inj hline
  refine ⟨hscan, ?_, ?_, ?_, ?_, ?_⟩
  · have htexts := congrArg (List.map Prod.snd) hlog
    rw [List.map_map] at htexts
    refine htexts.trans ?_
    rw [show lastAssigned Request.source? s.source before = "a @" from rfl,
      show lastAssigned Request.filename? s.filename before = "b" from rfl, hreports, hlength, hone]
    decide
  · rw [(hshows later hscan).entries_eq,
      show lastAssigned Request.source? s.source before = "a @" from rfl, hreports]
    decide
  · rw [(hshows later hscan).tokens_eq]
    exact htokens
  · exact (hkept (.tokenize :: later)).trans (by decide +kernel)
  · rw [hread, hsession]
    decide +kernel

end Session

end LoxFrontEnd
