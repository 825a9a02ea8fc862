import LoxFrontEnd.Proofs.Concatenation
import LoxFrontEnd.Proofs.Restart

/-!
# Appending

What stays when text is added at the end of a source. No piece is decided by more than two characters
after it, so a token that two characters follow is found again at its index, and no token that ends so
early is new. A stray character is reported again whatever comes after it; only what was left open may
be reported differently.
-/

namespace LoxFrontEnd

/-! ### Tokens -/

theorem Piece.end_of_token? {piece : Piece} {p : Position} {t : Token}
    (h : piece.token? p = some t) : t.offset + t.lexeme.toList.length = p.offset + piece.text.length := by
  rw [(place_of_token? h).2, (content_of_token? h).2]

/-- The tokens of a source by their indices: before the piece of a token stand as many tokens as its
index says. -/
theorem getElem?_body_iff {source : String} {n : Nat} {t : Token} :
    (scan source).body[n]? = some t ↔
      ∃ ps piece, ps ++ [piece] <+: pieces source.toList ∧ (tokensFrom {} ps).length = n ∧
        piece.token? (({} : Position).after (ps.flatMap Piece.text)) = some t := by
  constructor
  · intro h
    obtain ⟨hn, rfl⟩ := List.getElem?_eq_some_iff.1 h
    have hbody : (scan source).body =
        (scan source).body.take n ++ (scan source).body[n] :: (scan source).body.drop (n + 1) := by
      rw [List.getElem_cons_drop, List.take_append_drop]
    obtain ⟨ps, piece, more, hps, htokens, ht⟩ := exists_piece_of_tokensFrom hbody
    refine ⟨ps, piece, ⟨more, ?_⟩, ?_, ht⟩
    · rw [List.append_assoc]
      exact hps.symm
    · rw [htokens, List.length_take_of_le hn.le]
  · rintro ⟨ps, piece, ⟨more, hps⟩, rfl, ht⟩
    rw [scan, ← hps, List.append_assoc, tokensFrom_append,
      List.getElem?_append_right (Nat.le_refl _), Nat.sub_self]
    simp only [List.singleton_append, tokensFrom, ht]
    rfl

theorem getElem?_tokens_iff {source : String} {n : Nat} {t : Token}
    (h : t.offset + t.lexeme.toList.length < source.toList.length) :
    (scan source).tokens[n]? = some t ↔ (scan source).body[n]? = some t := by
  have hend : t ∉ [Token.endOfInput (scan source).finish] := by
    intro hm
    rw [List.mem_singleton.1 hm] at h
    simp only [Token.endOfInput, scan, Position.after] at h
    omega
  rw [Scan.tokens, List.getElem?_append]
  split_ifs with hn
  · rfl
  · rw [List.getElem?_eq_none (Nat.le_of_not_lt hn)]
    exact iff_of_false (fun ht => hend (List.mem_of_getElem? ht)) (Option.some_ne_none t).symm

theorem getElem?_body_append_iff {first second : String} {n : Nat} {t : Token}
    (h : t.offset + t.lexeme.toList.length + 2 ≤ first.toList.length) :
    (scan first).body[n]? = some t ↔ (scan (first ++ second)).body[n]? = some t := by
  rw [getElem?_body_iff, getElem?_body_iff, String.toList_append]
  refine exists_congr fun ps => exists_congr fun piece => and_congr_left fun hplace => ?_
  have hend := Piece.end_of_token? hplace.2
  apply prefix_pieces_append_iff
  simp only [Position.after, List.flatMap_append, List.flatMap_singleton, List.length_append] at hend ⊢
  omega

/-! ### Reports -/

def Report.isUnexpected (r : Report) : Bool :=
  match r.fault with
  | .unexpected _ => true
  | _ => false

theorem Report.leavesOpen_of_isUnexpected_eq_false {r : Report} (h : r.isUnexpected = false) :
    r.LeavesOpen := by
  rw [Report.leavesOpen_iff]
  unfold isUnexpected at h
  cases hf : r.fault with
  | unexpected c => simp [hf] at h
  | unterminatedString => exact .inl rfl
  | unterminatedComment => exact .inr rfl

theorem Piece.runsOn_of_report? {piece : Piece} {p : Position} {r : Report}
    (h : piece.report? p = some r) (rest : List Char) :
    piece.runsOn rest = (!r.isUnexpected && !rest.isEmpty) := by
  unfold report? at h
  split at h
  · next fault he =>
    cases h
    cases fault <;> simp [runsOn, he, Report.isUnexpected]
  · cases h

theorem reportsFrom_of_runsOn_append {piece : Piece} {rest more : List Char}
    (h : piece.runsOn rest = false) (hr : piece.runsOn (rest ++ more) = true) (p : Position) :
    reportsFrom p (pieces rest) = [] := by
  have hshort : rest = [] ∨ rest = ['.'] := by
    by_contra hlong
    rw [not_or] at hlong
    rw [Piece.runsOn_append hlong.1 hlong.2, h] at hr
    contradiction
  rcases hshort with rfl | rfl
  · rw [pieces_nil]
    rfl
  · rw [reportsFrom_eq_nil_iff]
    decide +kernel

/-- With more text after it, a text begins with the same reports of stray characters; it may have one
more report, of what is left open. -/
theorem exists_reports_append (p : Position) (text more : List Char) :
    ∃ kept opened, reportsFrom p (pieces text) = kept ++ opened ∧
      kept <+: reportsFrom p (pieces (text ++ more)) ∧
      (∀ r ∈ kept, r.isUnexpected = true) ∧ ∀ r ∈ opened, r.isUnexpected = false := by
  fun_induction pieces text generalizing p with
  | case1 => exact ⟨[], [], rfl, List.nil_prefix, List.forall_mem_nil _, List.forall_mem_nil _⟩
  | case2 c rest ih =>
    have hcut : Cut.of? (c :: rest) = some (Cut.first c rest) := rfl
    rw [reportsFrom]
    cases hseam : (Cut.first c rest).piece.runsOn ((Cut.first c rest).rest ++ more) with
    | true =>
      -- the piece may grow, so it is no stray character, and hardly anything comes after it
      rw [reportsFrom_of_runsOn_append (Cut.runsOn_rest hcut) hseam, List.append_nil]
      refine ⟨[], _, rfl, List.nil_prefix, List.forall_mem_nil _, fun r hr => ?_⟩
      rw [Piece.runsOn_of_report? (Option.mem_toList.1 hr), Bool.and_eq_true] at hseam
      simpa using hseam.1
    | false =>
      have hlonger : pieces (c :: rest ++ more) =
          (Cut.first c rest).piece :: pieces ((Cut.first c rest).rest ++ more) := by
        rw [← Cut.source_of_of? hcut, List.append_assoc]
        exact pieces_again hcut hseam
      obtain ⟨kept, opened, hreports, hkept, hstray, hopen⟩ := ih (p.after (Cut.first c rest).piece.text)
      rw [hlonger, reportsFrom, hreports]
      cases hr : (Cut.first c rest).piece.report? p with
      | none => exact ⟨kept, opened, rfl, hkept, hstray, hopen⟩
      | some r =>
        cases hu : r.isUnexpected with
        | true =>
          exact ⟨r :: kept, opened, rfl, List.cons_prefix_cons.2 ⟨rfl, hkept⟩,
            List.forall_mem_cons.2 ⟨hu, hstray⟩, hopen⟩
        | false =>
          have hend : (Cut.first c rest).rest = [] := by
            have hr := Piece.runsOn_of_report? hr (Cut.first c rest).rest
            rw [Cut.runsOn_rest hcut, hu] at hr
            simpa using hr
          rw [hend, pieces_nil] at hreports
          obtain ⟨rfl, rfl⟩ := List.append_eq_nil_iff.1 hreports.symm
          exact ⟨[], [r], rfl, List.nil_prefix, List.forall_mem_nil _, List.forall_mem_singleton.2 hu⟩

/-! ### Sources -/

/-- A source with more text after it. The tokens that end at least two characters before its end stay,
with all their fields and their indices, and there are no others that end so early. The reports of stray
characters stay in front of all other reports; a report that changes is of a string or of a comment
that was left open. -/
theorem scan_append_stable (first second : String) :
    let longer := first ++ second
    (∀ (n : Nat) (t : Token), t.offset + t.lexeme.toList.length ≤ (first.toList.length : Int) - 2 →
      ((scan first).tokens[n]? = some t ↔ (scan longer).tokens[n]? = some t)) ∧
    (scan first).reports.filter Report.isUnexpected <+: (scan longer).reports ∧
    ∀ (n : Nat) (r : Report), (scan first).reports[n]? = some r →
      (scan longer).reports[n]? = some r ∨ r.LeavesOpen := by
  intro longer
  obtain ⟨kept, opened, hreports, hkept, hstray, hopen⟩ :=
    exists_reports_append {} first.toList second.toList
  rw [← String.toList_append] at hkept
  replace hreports : (scan first).reports = kept ++ opened := hreports
  replace hkept : kept <+: (scan longer).reports := hkept
  refine ⟨fun n t ht => ?_, ?_, fun n r hr => ?_⟩
  · have hlength : (longer.toList.length : Int) = first.toList.length + second.toList.length := by
      rw [String.toList_append, List.length_append, Int.natCast_add]
    rw [getElem?_tokens_iff (by omega), getElem?_tokens_iff (by omega)]
    exact getElem?_body_append_iff (by omega)
  · have hfilter : opened.filter Report.isUnexpected = [] :=
      List.filter_eq_nil_iff.2 fun r hr => by simp [hopen r hr]
    rw [hreports, List.filter_append, List.filter_eq_self.2 hstray, hfilter, List.append_nil]
    exact hkept
  · rw [hreports, List.getElem?_append] at hr
    split_ifs at hr with hn
    · obtain ⟨more, hmore⟩ := hkept
      rw [← hmore, List.getElem?_append_left hn]
      exact .inl hr
    · exact .inr (Report.leavesOpen_of_isUnexpected_eq_false (hopen r (List.mem_of_getElem? hr)))

/-- A number that grows across its point, and a comment that the added text closes. -/
theorem scan_append_stable_number :
    let early : Token := ⟨.identifier, "a", none, 1, 0⟩
    (scan "a @ 1.").tokens[0]? = some early ∧ (scan ("a @ 1." ++ "5\"")).tokens[0]? = some early ∧
    (scan "a @ 1.").tokens[1]? ≠ (scan ("a @ 1." ++ "5\"")).tokens[1]? ∧
    [⟨1, .unexpected '@'⟩] <+: (scan ("a @ 1." ++ "5\"")).reports ∧
    (scan ("a @ /*" ++ "*/")).reports[0]? = some ⟨1, .unexpected '@'⟩ ∧
    (scan "a @ /*").reports[1]? ≠ (scan ("a @ /*" ++ "*/")).reports[1]? := by
  intro early
  have hearly : (scan "a @ 1.").tokens[0]? = some early := by decide +kernel
  have hend : early.offset + early.lexeme.toList.length ≤ ("a @ 1.".toList.length : Int) - 2 := by
    decide
  have hreports : (scan "a @ 1.").reports.filter Report.isUnexpected = [⟨1, .unexpected '@'⟩] := by
    decide +kernel
  have hstray : (scan "a @ /*").reports[0]? = some ⟨1, .unexpected '@'⟩ := by decide +kernel
  obtain ⟨htokens, hprefix, -⟩ := scan_append_stable "a @ 1." "5\""
  obtain ⟨-, -, hkept⟩ := scan_append_stable "a @ /*" "*/"
  rw [hreports] at hprefix
  refine ⟨hearly, (htokens 0 early hend).1 hearly, by decide +kernel, hprefix, ?_, by decide +kernel⟩
  refine (hkept 0 _ hstray).resolve_right fun hopen => ?_
  rw [Report.leavesOpen_iff] at hopen
  simp at hopen

end LoxFrontEnd
