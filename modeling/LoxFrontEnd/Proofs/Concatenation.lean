import LoxFrontEnd.Command.Run
import LoxFrontEnd.Proofs.Content
import LoxFrontEnd.Proofs.Restart

/-!
# Concatenation

Two texts with a newline between them. A newline ends whatever the first text ends in, a line comment
or an operator that waits for an equal sign, except a string or a comment that is still open. So where
nothing is left open, the scan of both is the scan of the first and then that of the second, moved to
where the second begins, and a text may be scanned line by line.
-/

namespace LoxFrontEnd

/-! ### Nothing left open -/

/-- The report says that a string or a comment is still open at the end. -/
def Report.LeavesOpen (r : Report) : Prop :=
  r.message = unterminatedString ∨ r.message = unterminatedComment

def Scan.Closed (s : Scan) : Prop := ∀ r ∈ s.reports, ¬r.LeavesOpen

def Piece.isOpen (piece : Piece) : Bool :=
  match piece.element with
  | .fault .unterminatedString => true
  | .fault .unterminatedComment => true
  | _ => false

theorem Report.leavesOpen_iff (r : Report) :
    r.LeavesOpen ↔ r.fault = .unterminatedString ∨ r.fault = .unterminatedComment := by
  have hclass := DiagnosticCode.ofMessage?_message r.fault
  constructor
  · intro h
    rcases h with h | h
    · rw [show r.fault.message = LexicalFault.unterminatedString.message from h,
        DiagnosticCode.ofMessage?_message] at hclass
      cases hf : r.fault with
      | unterminatedString => exact .inl rfl
      | _ => simp [hf, DiagnosticCode.ofFault] at hclass
    · rw [show r.fault.message = LexicalFault.unterminatedComment.message from h,
        DiagnosticCode.ofMessage?_message] at hclass
      cases hf : r.fault with
      | unterminatedComment => exact .inr rfl
      | _ => simp [hf, DiagnosticCode.ofFault] at hclass
  · intro h
    rcases h with h | h
    · exact .inl (congrArg LexicalFault.message h)
    · exact .inr (congrArg LexicalFault.message h)

theorem leavesOpen_report_iff (piece : Piece) (p : Position) :
    (∃ r ∈ piece.report? p, r.LeavesOpen) ↔ piece.isOpen = true := by
  rw [Piece.report?, Piece.isOpen]
  cases he : piece.element with
  | token kind => simp
  | trivia => simp
  | fault fault => cases fault <;> simp [Report.leavesOpen_iff]

theorem not_leavesOpen_reportsFrom_iff (p : Position) (ps : List Piece) :
    (∀ r ∈ reportsFrom p ps, ¬r.LeavesOpen) ↔ ∀ piece ∈ ps, piece.isOpen = false := by
  induction ps generalizing p with
  | nil => simp [reportsFrom]
  | cons piece more ih =>
    have hpiece : (∀ r ∈ (piece.report? p).toList, ¬r.LeavesOpen) ↔ piece.isOpen = false := by
      rw [← Bool.not_eq_true, ← leavesOpen_report_iff piece p]
      simp
    rw [reportsFrom, List.forall_mem_append, hpiece, ih, List.forall_mem_cons]

theorem Scan.dropLast_tokens (s : Scan) : s.tokens.dropLast = s.body := List.dropLast_concat

theorem scan_closed_iff (source : String) :
    (scan source).Closed ↔ ∀ piece ∈ pieces source.toList, piece.isOpen = false :=
  not_leavesOpen_reportsFrom_iff _ _

/-! ### Two texts -/

/-- A newline ends whatever is not left open. -/
theorem Piece.runsOn_newline {piece : Piece} (h : piece.isOpen = false) (more : List Char) :
    piece.runsOn ('\n' :: more) = false := by
  unfold Piece.isOpen at h
  unfold Piece.runsOn
  split
  · exact Kind.runsOn_blank (by decide) _ _ _
  · exact Bool.and_false _
  · rfl
  · next fault hc he =>
    rw [he] at h
    cases fault with
    | unexpected c => exact absurd rfl (hc c)
    | unterminatedString => contradiction
    | unterminatedComment => contradiction

theorem pieces_append_newline {text : List Char} (h : ∀ piece ∈ pieces text, piece.isOpen = false)
    (more : List Char) :
    pieces (text ++ '\n' :: more) = pieces text ++ Piece.blank '\n' :: pieces more := by
  rw [pieces_append_blank rfl, pieces_cons, Cut.first_blank rfl]
  · rfl
  · exact fun piece hlast => Piece.runsOn_newline (h piece (List.mem_of_getLast? hlast)) more

/-- One text, a newline and another text: the scan of the first, and that of the second moved to where
it begins. -/
theorem scan_append_newline {first : String} (h : (scan first).Closed) (second : String) :
    let lines : Int := 1 + first.toList.count '\n'
    let characters : Int := first.toList.length + 1
    scan (first ++ "\n" ++ second) =
      { body := (scan first).body ++ (scan second).body.map (·.moved lines characters)
        finish := (scan second).finish.moved lines characters
        reports := (scan first).reports ++ (scan second).reports.map (·.moved lines) } := by
  intro lines characters
  have hpieces := pieces_append_newline ((scan_closed_iff first).1 h)
  have hlast : pieces (first ++ "\n").toList = pieces first.toList ++ [Piece.blank '\n'] := by
    rw [String.toList_append, ← pieces_nil]
    exact hpieces []
  have hnewline : scan "\n" = ⟨[], ⟨2, 1⟩, []⟩ := by decide +kernel
  have hfirst : scan (first ++ "\n") = (scan first).andThen (scan "\n") := by
    apply scan_append_of_pieces
    rw [← String.toList_append, hlast]
    exact congrArg _ (by decide +kernel)
  have hscan : scan (first ++ "\n" ++ second) = (scan (first ++ "\n")).andThen (scan second) := by
    apply scan_append_of_pieces
    rw [hlast, String.toList_append, List.append_assoc, List.append_assoc]
    exact hpieces second.toList
  -- the second text begins after the first and its newline
  have hline : (⟨2, 1⟩ : Position).moved ((scan first).finish.line - 1) (scan first).finish.offset =
      ⟨lines + 1, characters⟩ := by
    simp only [scan, Position.after, Position.moved, Position.mk.injEq, lines, characters]
    omega
  simp [hscan, hfirst, hnewline, Scan.andThen, hline]

/-! ### Line by line -/

/-- The number of characters before a line, with the newlines that end the lines before it. -/
def lineStart (lines : List String) (n : Nat) : Nat :=
  ((lines.take n).flatMap fun line => line.toList ++ ['\n']).length

theorem lineStart_cons_succ (line : String) (lines : List String) (n : Nat) :
    (lineStart (line :: lines) (n + 1) : Int) =
      line.toList.length + 1 + lineStart lines n := by
  simp only [lineStart, List.take_succ_cons, List.flatMap_cons, List.length_append,
    List.length_singleton]
  omega

theorem map_mapIdx {α β γ : Type} (f : Nat → α → β) (g : β → γ) (items : List α) :
    (items.mapIdx f).map g = items.mapIdx fun n a => g (f n a) := by
  apply List.ext_getElem?
  intro n
  rw [List.getElem?_map, List.getElem?_mapIdx, List.getElem?_mapIdx, Option.map_map]
  rfl

theorem map_moved_lineStart (line : String) (lines : List String) (tokens : List Token) (n : Nat) :
    (tokens.map (·.moved n (lineStart lines n))).map (·.moved 1 (line.toList.length + 1)) =
      tokens.map (·.moved ((n + 1 : Nat) : Int) (lineStart (line :: lines) (n + 1))) := by
  rw [List.map_map]
  refine List.map_congr_left fun t _ => ?_
  rw [Function.comp_apply, Token.moved_moved, lineStart_cons_succ, Int.add_comm 1]
  rfl

theorem map_moved_line (reports : List Report) (n : Nat) :
    (reports.map (·.moved n)).map (·.moved 1) = reports.map (·.moved ((n + 1 : Nat) : Int)) := by
  rw [List.map_map]
  refine List.map_congr_left fun r _ => ?_
  rw [Function.comp_apply, Report.moved_moved, Int.add_comm 1]
  rfl

/-- Each line scanned as a text of its own and moved to where it begins. -/
theorem scan_intercalate {lines : List String}
    (h : ∀ line ∈ lines, '\n' ∉ line.toList ∧ (scan line).Closed) (last : String) :
    let all := lines ++ [last]
    scan (String.intercalate "\n" all) =
      { body := (all.mapIdx fun n line =>
          (scan line).body.map (·.moved n (lineStart all n))).flatten
        finish := (scan last).finish.moved lines.length (lineStart all lines.length)
        reports := (all.mapIdx fun n line => (scan line).reports.map (·.moved n)).flatten } := by
  induction lines with
  | nil => simp [lineStart, Token.moved_zero, Report.moved_zero, Position.moved]
  | cons line lines ih =>
    obtain ⟨⟨hline, hclosed⟩, hlines⟩ := List.forall_mem_cons.1 h
    have hne : lines ++ [last] ≠ [] := List.append_ne_nil_of_right_ne_nil _ (List.cons_ne_nil _ _)
    have htext : String.intercalate "\n" (line :: (lines ++ [last])) =
        line ++ "\n" ++ String.intercalate "\n" (lines ++ [last]) :=
      String.intercalate_cons_of_ne_nil hne
    have hone : (1 : Int) + line.toList.count '\n' = 1 := by
      rw [List.count_eq_zero.2 hline]
      rfl
    have hfirst : (scan line).body.map (·.moved (0 : Nat) (lineStart (line :: (lines ++ [last])) 0)) =
        (scan line).body :=
      List.map_id'' (fun t => t.moved_zero) _
    have hreports : (scan line).reports.map (·.moved (0 : Nat)) = (scan line).reports :=
      List.map_id'' (fun r => r.moved_zero) _
    simp only [List.cons_append, htext, scan_append_newline hclosed, ih hlines, hone,
      List.map_flatten, map_mapIdx, map_moved_lineStart, map_moved_line, List.mapIdx_cons,
      List.flatten_cons, hfirst, hreports, Scan.mk.injEq, true_and, and_true]
    rw [Position.moved_moved, List.length_cons, lineStart_cons_succ, Int.add_comm 1]
    rfl

/-- The prompt scans each line as a text of its own, into an empty journal. -/
theorem exchanges_eq_map (verbose : Bool) (lines : List String) :
    Command.exchanges verbose {} lines =
      lines.map fun line => ⟨{}, Command.printText verbose {} line⟩ := by
  induction lines with
  | nil => rfl
  | cons line lines ih =>
    rw [Command.exchanges, List.map_cons]
    exact congrArg _ ih

/-- The law of concatenation. After a text that leaves nothing open, a newline and a second text add
the tokens and the reports of the second, moved to where it begins. So the lines of a text that are
closed can be scanned one by one, as at the prompt; only the ends of the input between them go. -/
theorem scan_concatenation :
    (∀ first second : String, (scan first).Closed →
      (scan (first ++ "\n" ++ second)).tokens =
        (scan first).tokens.dropLast ++
          (scan second).tokens.map
            (·.moved (1 + first.toList.count '\n') (first.toList.length + 1)) ∧
      (scan (first ++ "\n" ++ second)).reports =
        (scan first).reports ++
          (scan second).reports.map (·.moved (1 + first.toList.count '\n'))) ∧
    ∀ (verbose : Bool) (lines : List String) (last : String),
      (∀ line ∈ lines, '\n' ∉ line.toList ∧ (scan line).Closed) →
      let all := lines ++ [last]
      let text := String.intercalate "\n" all
      Command.exchanges verbose {} all =
        all.map (fun line => ⟨{}, Command.printText verbose {} line⟩) ∧
      (scan text).tokens =
        (lines.mapIdx fun n line =>
          (scan line).tokens.dropLast.map (·.moved n (lineStart all n))).flatten ++
          (scan last).tokens.map (·.moved lines.length (lineStart all lines.length)) ∧
      (scan text).reports =
        (all.mapIdx fun n line => (scan line).reports.map (·.moved n)).flatten := by
  constructor
  · intro first second h
    have hscan := scan_append_newline h second
    constructor
    · rw [Scan.map_tokens_moved, Scan.dropLast_tokens, ← List.append_assoc, hscan]
      rfl
    · rw [hscan]
  · intro verbose lines last h all text
    have hscan : scan text = _ := scan_intercalate h last
    refine ⟨exchanges_eq_map verbose all, ?_, ?_⟩
    · simp only [Scan.map_tokens_moved, Scan.dropLast_tokens]
      rw [← List.append_assoc, hscan, Scan.tokens, List.mapIdx_concat, List.flatten_append,
        List.flatten_singleton]
    · rw [hscan]

/-- A slash at the end of a line and one at the start of the next make no comment. -/
theorem scan_concatenation_slashes :
    (scan "n @ = /").Closed ∧ '\n' ∉ "n @ = /".toList ∧
    (scan ("n @ = /" ++ "\n" ++ "/ \"\n")).tokens.map (fun t => (t.kind, t.line, t.offset)) =
      [(.identifier, 1, 0), (.equal, 1, 4), (.slash, 1, 6), (.slash, 2, 8),
        (.endOfInput, 3, 12)] ∧
    (scan (String.intercalate "\n" (["n @ = /"] ++ ["/ \"\n"]))).reports =
      [⟨1, .unexpected '@'⟩, ⟨3, .unterminatedString⟩] := by
  have hreports : (scan "n @ = /").reports = [⟨1, .unexpected '@'⟩] := by
    decide +kernel
  have hclosed : (scan "n @ = /").Closed := by
    intro r hr
    rw [hreports, List.mem_singleton] at hr
    rw [hr, Report.leavesOpen_iff]
    decide
  have hline : '\n' ∉ "n @ = /".toList := by decide
  refine ⟨hclosed, hline, ?_, ?_⟩
  · rw [(scan_concatenation.1 _ "/ \"\n" hclosed).1]
    decide +kernel
  · have hlines : ∀ line ∈ ["n @ = /"], '\n' ∉ line.toList ∧ (scan line).Closed :=
      List.forall_mem_singleton.2 ⟨hline, hclosed⟩
    rw [(scan_concatenation.2 false _ "/ \"\n" hlines).2.2]
    decide +kernel

end LoxFrontEnd
