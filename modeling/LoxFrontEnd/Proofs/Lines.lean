import LoxFrontEnd.Proofs.Segmentation

/-!
# Lines

The lines that a scan gives to its tokens and reports, counted in the source. A token has the line of
its first character, and so has a report of a character that begins nothing; what stays open is reported
on the last line. Each newline before a place counts once there, whatever piece it lies in.
-/

namespace LoxFrontEnd

/-! ### Places in a source -/

def lineAt (source : List Char) (n : Nat) : Int := 1 + (source.take n).count '\n'

def Position.within (source : List Char) (n : Nat) : Position :=
  ({} : Position).after (source.take n)

theorem Position.within_zero (source : List Char) : within source 0 = {} := after_nil {}

theorem Position.within_line (source : List Char) (n : Nat) : (within source n).line = lineAt source n :=
  rfl

theorem Position.within_offset {source : List Char} {n : Nat} (h : n ≤ source.length) :
    (within source n).offset = n := by
  simp [within, after, h]

theorem Position.within_after {source text rest : List Char} {n : Nat}
    (h : source.drop n = text ++ rest) :
    (within source n).after text = within source (n + text.length) := by
  rw [within, within, ← after_append, List.take_add, h, List.take_left]

theorem le_length_of_drop {source text : List Char} {c : Char} {n : Nat}
    (h : source.drop n = c :: text) : n < source.length := by
  have hl := congrArg List.length h
  rw [List.length_drop, List.length_cons] at hl
  omega

/-! ### Tokens -/

theorem line_of_mem_tokensFrom {source text : List Char} {n : Nat} {t : Token}
    (hs : source.drop n = text) (ht : t ∈ tokensFrom (.within source n) (pieces text)) :
    ∃ start : Nat, t.offset = start ∧ t.line = lineAt source start := by
  fun_induction pieces text generalizing n with
  | case1 => cases ht
  | case2 c rest ih =>
    have hn := le_length_of_drop hs
    have hsource := hs.trans (Cut.first_source c rest).symm
    rw [tokensFrom, Position.within_after hsource, List.mem_append] at ht
    rcases ht with ht | ht
    · rw [Piece.token?] at ht
      split at ht
      · rw [Option.mem_toList, Option.some.injEq] at ht
        subst ht
        exact ⟨n, Position.within_offset (Nat.le_of_lt hn), rfl⟩
      · contradiction
    · exact ih (drop_add_of_drop_eq hsource) ht

/-! ### Reports -/

/-- The report is made of the faulty piece that begins after `start` characters, on its line. -/
def Report.OnLineOf (r : Report) (source : List Char) (start : Nat) (piece : Piece) : Prop :=
  match piece.element with
  | .fault (.unexpected c) =>
    r.fault = .unexpected c ∧ source[start]? = some c ∧ r.line = lineAt source start
  | .fault fault => r.fault = fault ∧ r.line = 1 + source.count '\n'
  | _ => False

theorem onLineOf_report {source text : List Char} {n : Nat} {cut : Cut} {fault : LexicalFault}
    (hs : source.drop n = text) (hcut : Cut.of? text = some cut)
    (he : cut.piece.element = .fault fault) :
    Report.OnLineOf ⟨((Position.within source n).after cut.piece.text).line, fault⟩ source n
      cut.piece := by
  have hsource := hs.trans (Cut.source_of_of? hcut).symm
  have hopen : (∀ c, fault ≠ .unexpected c) →
      ((Position.within source n).after cut.piece.text).line = 1 + source.count '\n' := by
    intro hf
    have hl := congrArg List.length hsource
    rw [Cut.rest_of_unterminated hcut he hf, List.append_nil, List.length_drop] at hl
    rw [Position.within_after hsource, Position.within_line, lineAt,
      List.take_of_length_le (by omega)]
  simp only [Report.OnLineOf, he]
  cases fault with
  | unexpected c =>
    obtain ⟨htext, hc⟩ := Cut.text_of_unexpected hcut he
    have hne : c ≠ '\n' := by
      intro he
      rw [he, Lead.of_newline] at hc
      contradiction
    refine ⟨rfl, ?_, ?_⟩
    · have hget := congrArg (fun l : List Char => l[0]?) hsource
      rw [htext] at hget
      simpa using hget
    · rw [htext, Position.after, List.count_cons_of_ne hne]
      simp [Position.within_line]
  | unterminatedString => exact ⟨rfl, hopen (by simp)⟩
  | unterminatedComment => exact ⟨rfl, hopen (by simp)⟩

theorem forall₂_reports_lines {source text : List Char} {n : Nat} (hs : source.drop n = text) :
    List.Forall₂ (fun q (r : Report) => r.OnLineOf source q.1 q.2)
      ((placedFrom n (pieces text)).filter fun q => q.2.isFaulty)
      (reportsFrom (.within source n) (pieces text)) := by
  fun_induction pieces text generalizing n with
  | case1 => exact .nil
  | case2 c rest ih =>
    have hsource := hs.trans (Cut.first_source c rest).symm
    have hstep := ih (drop_add_of_drop_eq hsource)
    rw [← Position.within_after hsource] at hstep
    rw [placedFrom, reportsFrom, Piece.report?]
    cases he : (Cut.first c rest).piece.element with
    | token kind =>
      rw [List.filter_cons_of_neg (by simp [Piece.isFaulty, he])]
      exact hstep
    | trivia =>
      rw [List.filter_cons_of_neg (by simp [Piece.isFaulty, he])]
      exact hstep
    | fault fault =>
      rw [List.filter_cons_of_pos (by simp [Piece.isFaulty, he])]
      exact .cons (onLineOf_report hs rfl he) hstep

/-- Every line that a scan gives is counted in the source: that of a token up to its first character,
that of the end of the input over the whole source, that of a bad character up to that character, and
that of a string or comment that stays open over the whole source. -/
theorem scan_lines (source : String) :
    (∀ t ∈ (scan source).body,
      ∃ start : Nat, t.offset = start ∧ t.line = 1 + (source.toList.take start).count '\n') ∧
    (Token.endOfInput (scan source).finish).line = 1 + source.toList.count '\n' ∧
    List.Forall₂ (fun q (r : Report) => r.OnLineOf source.toList q.1 q.2)
      ((placedFrom 0 (pieces source.toList)).filter fun q => q.2.isFaulty) (scan source).reports := by
  refine ⟨?_, rfl, ?_⟩
  · intro t ht
    rw [scan, ← Position.within_zero source.toList] at ht
    exact line_of_mem_tokensFrom (List.drop_zero ..) ht
  · rw [scan, ← Position.within_zero source.toList]
    exact forall₂_reports_lines (List.drop_zero ..)

end LoxFrontEnd
