import LoxFrontEnd.Proofs.FileText
import LoxFrontEnd.Proofs.Seam

/-!
# Carriage returns before newlines

A source in which every carriage return stands before a newline, and the same source without them. A
carriage return is a blank of its own, or it lies in a comment or a string; in no case does it decide
where a piece ends. So both sources yield the same tokens on the same lines and the same reports, and
since a file is read as the second one, it does not matter which way a text is taken in.
-/

namespace LoxFrontEnd

open Newline (Paired normalise_of_paired withoutReturns withoutReturns_return withoutReturns_cons
  withoutReturns_append withoutReturns_eq_self notMem_withoutReturns count_withoutReturns)

/-! ### Comments -/

/-- After a character that is no carriage return, the same character comes as before, or a newline in the
place of a carriage return; so no mark comes about. -/
theorem beginsMark_withoutReturns {c d : Char} {text : List Char} (hp : Paired (d :: text))
    (h : beginsMark (c :: d :: text) = false) :
    withoutReturns (d :: text) ≠ [] ∧ beginsMark (c :: withoutReturns (d :: text)) = false := by
  by_cases hd : d = '\r'
  · subst hd
    obtain ⟨more, rfl⟩ := hp.exists_newline
    rw [withoutReturns_return, withoutReturns_cons (by decide)]
    refine ⟨List.cons_ne_nil _ _, ?_⟩
    rw [← Bool.not_eq_true, beginsMark_cons_cons]
    simp
  · rw [withoutReturns_cons hd]
    refine ⟨List.cons_ne_nil _ _, ?_⟩
    rw [← Bool.not_eq_true, beginsMark_cons_cons] at h ⊢
    exact h

theorem closeComment?_withoutReturns (depth : Nat) {text : List Char} (h : Paired text) :
    closeComment? depth (withoutReturns text) =
      (closeComment? depth text).map fun r => (withoutReturns r.1, withoutReturns r.2) := by
  fun_induction closeComment? depth text with
  | case1 => rfl
  | case2 depth c =>
    by_cases hc : c = '\r'
    · subst hc
      rfl
    · rw [withoutReturns_cons hc]
      rfl
  | case3 depth c d rest hopen ih =>
    obtain ⟨rfl, rfl⟩ := hopen
    rw [withoutReturns_cons (by decide), withoutReturns_cons (by decide), closeComment?_opening,
      ih h.tail.tail, Option.map_map, Option.map_map]
    rfl
  | case4 c d rest _ hclose =>
    obtain ⟨rfl, rfl⟩ := hclose
    rw [withoutReturns_cons (by decide), withoutReturns_cons (by decide), closeComment?_closing]
    rfl
  | case5 c d rest _ hclose depth ih =>
    obtain ⟨rfl, rfl⟩ := hclose
    rw [withoutReturns_cons (by decide), withoutReturns_cons (by decide), closeComment?_closing]
    simp only [ih h.tail.tail, Option.map_map]
    rfl
  | case6 depth c d rest hopen hclose ih =>
    have hmark : beginsMark (c :: d :: rest) = false := by
      rw [← Bool.not_eq_true, beginsMark_cons_cons]
      exact not_or.2 ⟨hopen, hclose⟩
    rw [Option.map_map]
    -- a carriage return that goes cannot bring two halves of a mark together: a newline comes after it
    by_cases hc : c = '\r'
    · subst hc
      rw [withoutReturns_return, ih h.tail]
      rfl
    · obtain ⟨hne, hnone⟩ := beginsMark_withoutReturns h.tail hmark
      rw [withoutReturns_cons hc, closeComment?_char depth hne hnone, ih h.tail, Option.map_map]
      refine Option.map_congr fun r _ => ?_
      simp only [Function.comp_apply, withoutReturns_cons hc]

/-! ### Elements -/

theorem breaksOff_withoutReturns {text : List Char} (h : Paired text) :
    BreaksOff text (withoutReturns text) := by
  induction text with
  | nil => exact .nothing []
  | cons c text ih =>
    by_cases hc : c = '\r'
    · subst hc
      obtain ⟨more, rfl⟩ := h.exists_newline
      rw [withoutReturns_return, withoutReturns_cons (by decide)]
      exact .blank _ _ rfl
    · rw [withoutReturns_cons hc]
      exact .same c (ih h.tail)

theorem Lexeme.withoutReturns_eq_self {kind : Kind} {text : List Char} (h : Lexeme kind text)
    (hk : kind ≠ .string) : withoutReturns text = text :=
  Newline.withoutReturns_eq_self fun hm => (h.lead_of_mem hk '\r' hm).2 (by decide)

theorem withoutReturns_quoted (inside : List Char) :
    withoutReturns ('"' :: (inside ++ ['"'])) = '"' :: (withoutReturns inside ++ ['"']) := by
  rw [withoutReturns_cons (by decide), withoutReturns_append]
  rfl

theorem Lexeme.withoutReturns {kind : Kind} {text : List Char} (h : Lexeme kind text) :
    Lexeme kind (withoutReturns text) := by
  by_cases hk : kind = .string
  · subst hk
    obtain ⟨inside, hq, rfl⟩ := h.exists_inside
    rw [withoutReturns_quoted]
    exact .string (notMem_withoutReturns hq)
  · rw [h.withoutReturns_eq_self hk]
    exact h

/-- An element in front of what does not run on from it stays one, and what follows still does not run
on from it. -/
theorem ElementAt.withoutReturns {e : Element} {text rest : List Char} (h : ElementAt e text rest)
    (hp : Paired (text ++ rest)) (hne : text ≠ ['\r']) (hr : Piece.runsOn ⟨e, text⟩ rest = false) :
    ElementAt e (withoutReturns text) (withoutReturns rest) ∧
      Piece.runsOn ⟨e, withoutReturns text⟩ (withoutReturns rest) = false := by
  have hrest := breaksOff_withoutReturns hp.of_append
  cases h with
  | @token kind _ _ hl =>
    refine ⟨.token hl.withoutReturns, ?_⟩
    -- only a string has carriage returns in it, and nothing runs on from a string
    by_cases hk : kind = .string
    · subst hk
      rfl
    · rw [hl.withoutReturns_eq_self hk]
      rw [← Bool.not_eq_true] at hr ⊢
      exact fun hlonger => hr (Kind.runsOn_of_breaksOff hrest hlonger)
  | @blank c _ hb =>
    have hc : c ≠ '\r' := fun he => hne (congrArg (fun d => [d]) he)
    rw [withoutReturns_cons hc]
    exact ⟨.blank hb, by simp [Piece.runsOn, Newline.withoutReturns]⟩
  | @lineComment inside _ hn =>
    rw [withoutReturns_cons (by decide), withoutReturns_cons (by decide)]
    refine ⟨.lineComment (notMem_withoutReturns hn), ?_⟩
    cases rest with
    | nil => rfl
    | cons c rest =>
      have hc : c = '\n' := bne_eq_false_iff_eq.1 hr
      subst hc
      rw [withoutReturns_cons (by decide)]
      rfl
  | @blockComment inside _ hc =>
    rw [withoutReturns_cons (by decide), withoutReturns_cons (by decide)]
    have hinside : Paired (inside ++ rest) := hp.tail.tail
    have hclosed := closeComment?_withoutReturns 0 hinside
    rw [closeComment?_eq_some_iff.2 ⟨rfl, hc⟩] at hclosed
    exact ⟨.blockComment (closeComment?_eq_some_iff.1 hclosed).2, rfl⟩
  | @openString inside hq =>
    rw [withoutReturns_cons (by decide)]
    exact ⟨.openString (notMem_withoutReturns hq), rfl⟩
  | @openComment inside hn =>
    rw [withoutReturns_cons (by decide), withoutReturns_cons (by decide)]
    rw [List.append_nil] at hp
    have hopen := closeComment?_withoutReturns 0 hp.tail.tail
    rw [closeComment?_eq_none_iff.2 hn] at hopen
    exact ⟨.openComment (closeComment?_eq_none_iff.1 hopen), rfl⟩

/-! ### Pieces -/

def Piece.withoutReturns (piece : Piece) : Piece :=
  { piece with text := Newline.withoutReturns piece.text }

/-- A carriage return that is a blank of its own goes; what is left of any other piece stays. -/
def piecesWithoutReturns (ps : List Piece) : List Piece :=
  (ps.filter (· != Piece.blank '\r')).map Piece.withoutReturns

theorem piecesWithoutReturns_return (ps : List Piece) :
    piecesWithoutReturns (Piece.blank '\r' :: ps) = piecesWithoutReturns ps := by
  rw [piecesWithoutReturns, List.filter_cons_of_neg (by decide), piecesWithoutReturns]

theorem piecesWithoutReturns_cons {piece : Piece} (h : piece ≠ Piece.blank '\r') (ps : List Piece) :
    piecesWithoutReturns (piece :: ps) = piece.withoutReturns :: piecesWithoutReturns ps := by
  have hkeep : (piece != Piece.blank '\r') = true := bne_iff_ne.2 h
  rw [piecesWithoutReturns, List.filter_cons_of_pos (p := (· != Piece.blank '\r')) hkeep, List.map_cons,
    piecesWithoutReturns]

theorem Cut.of?_withoutReturns {text : List Char} {cut : Cut} (h : Cut.of? text = some cut)
    (hp : Paired text) (hne : cut.piece.text ≠ ['\r']) :
    Cut.of? (withoutReturns text) = some ⟨cut.piece.withoutReturns, withoutReturns cut.rest⟩ := by
  have hsource := Cut.source_of_of? h
  rw [← hsource] at hp
  rw [← hsource, withoutReturns_append]
  rcases elementAt_of_cut h with hel | ⟨c, hc, hnothing⟩
  · obtain ⟨hel, hr⟩ := hel.withoutReturns hp hne (Cut.runsOn_rest h)
    exact hel.cut_eq hr
  · have hreturn : c ≠ '\r' := fun he => hne (by rw [hc, he])
    rw [hc, Piece.withoutReturns, withoutReturns_cons hreturn]
    exact congrArg some (Cut.first_nothing hnothing _)

theorem pieces_withoutReturns {text : List Char} (h : Paired text) :
    pieces (withoutReturns text) = piecesWithoutReturns (pieces text) := by
  fun_induction pieces text with
  | case1 => exact pieces_nil
  | case2 c rest ih =>
    have hcut : Cut.of? (c :: rest) = some (Cut.first c rest) := rfl
    have hrest : Paired (Cut.first c rest).rest := by
      rw [← Cut.source_of_of? hcut] at h
      exact h.of_append
    by_cases hc : c = '\r'
    · subst hc
      have hreturn : Cut.first '\r' rest = ⟨Piece.blank '\r', rest⟩ := Cut.first_blank (by decide) rest
      rw [hreturn] at ih ⊢
      rw [withoutReturns_return, piecesWithoutReturns_return]
      exact ih h.tail
    · obtain ⟨more, htext, -⟩ := Cut.first_text c rest
      have hne : (Cut.first c rest).piece.text ≠ ['\r'] := by
        rw [htext]
        exact fun he => hc (List.cons.inj he).1
      rw [pieces_of_cut (Cut.of?_withoutReturns hcut h hne), ih hrest,
        piecesWithoutReturns_cons fun he => hne (congrArg Piece.text he)]

/-! ### Tokens and reports -/

def Literal.withoutReturns : Literal → Literal
  | .text value => .text (String.ofList (Newline.withoutReturns value.toList))
  | .number x => .number x

/-- The second token is the first one without the carriage returns in it, which only a string can have.
Both are on the same line; where they begin does not count. -/
structure Token.AgreesWithoutReturns (t u : Token) : Prop where
  kind : u.kind = t.kind
  line : u.line = t.line
  lexeme : u.lexeme.toList = Newline.withoutReturns t.lexeme.toList
  literal : u.literal = t.literal.map Literal.withoutReturns
  outside : t.kind ≠ .string → u.lexeme = t.lexeme ∧ u.literal = t.literal

theorem Literal.ofLexeme?_withoutReturns {kind : Kind} {text : List Char} (h : Lexeme kind text) :
    ofLexeme? kind (Newline.withoutReturns text) = (ofLexeme? kind text).map withoutReturns := by
  by_cases hk : kind = .string
  · subst hk
    obtain ⟨inside, -, rfl⟩ := h.exists_inside
    simp [withoutReturns_quoted, ofLexeme?, withoutReturns]
  · rw [h.withoutReturns_eq_self hk]
    exact (map_ofLexeme? (fun x => rfl) hk text).symm

theorem Position.line_after_withoutReturns {p q : Position} (h : p.line = q.line) (text : List Char) :
    (p.after text).line = (q.after (withoutReturns text)).line := by
  simp only [after, count_withoutReturns, h]

theorem Piece.token?_withoutReturns {piece : Piece}
    (hl : ∀ kind, piece.element = .token kind → Lexeme kind piece.text) {p q : Position}
    (h : p.line = q.line) :
    List.Forall₂ Token.AgreesWithoutReturns (piece.token? p).toList
      (piece.withoutReturns.token? q).toList := by
  unfold token?
  rw [show piece.withoutReturns.element = piece.element from rfl]
  cases he : piece.element with
  | token kind =>
    have hlexeme := hl kind he
    refine .cons ?_ .nil
    exact
      { kind := rfl
        line := h.symm
        lexeme := by rw [String.toList_ofList, String.toList_ofList]; rfl
        literal := Literal.ofLexeme?_withoutReturns hlexeme
        outside := fun hk => by
          rw [withoutReturns, hlexeme.withoutReturns_eq_self hk]
          exact ⟨rfl, rfl⟩ }
  | trivia => exact .nil
  | fault fault => exact .nil

theorem Piece.report?_withoutReturns (piece : Piece) {p q : Position} (h : p.line = q.line) :
    piece.withoutReturns.report? q = piece.report? p := by
  unfold report?
  rw [Position.line_after_withoutReturns h]
  rfl

theorem forall₂_tokensFrom_withoutReturns {ps : List Piece}
    (hl : ∀ piece ∈ ps, ∀ kind, piece.element = .token kind → Lexeme kind piece.text)
    {p q : Position} (h : p.line = q.line) :
    List.Forall₂ Token.AgreesWithoutReturns (tokensFrom p ps)
      (tokensFrom q (piecesWithoutReturns ps)) := by
  induction ps generalizing p q with
  | nil => exact .nil
  | cons piece more ih =>
    obtain ⟨hpiece, hmore⟩ := List.forall_mem_cons.1 hl
    by_cases hb : piece = Piece.blank '\r'
    · subst hb
      rw [piecesWithoutReturns_return]
      exact ih hmore ((Int.add_zero _).trans h)
    · rw [piecesWithoutReturns_cons hb, tokensFrom, tokensFrom]
      exact List.rel_append (Piece.token?_withoutReturns hpiece h)
        (ih hmore (Position.line_after_withoutReturns h piece.text))

theorem reportsFrom_withoutReturns (ps : List Piece) {p q : Position} (h : p.line = q.line) :
    reportsFrom q (piecesWithoutReturns ps) = reportsFrom p ps := by
  induction ps generalizing p q with
  | nil => rfl
  | cons piece more ih =>
    by_cases hb : piece = Piece.blank '\r'
    · subst hb
      rw [piecesWithoutReturns_return]
      exact ih ((Int.add_zero _).trans h)
    · rw [piecesWithoutReturns_cons hb, reportsFrom, reportsFrom, piece.report?_withoutReturns h]
      exact congrArg _ (ih (Position.line_after_withoutReturns h piece.text))

/-! ### Sources and files -/

section

variable {source : String} (h : Paired source.toList)

include h

theorem forall₂_tokens_withoutReturns :
    List.Forall₂ Token.AgreesWithoutReturns (scan source).tokens
      (scan (String.ofList (withoutReturns source.toList))).tokens := by
  have hlexeme : ∀ piece ∈ pieces source.toList, ∀ kind, piece.element = .token kind →
      Lexeme kind piece.text :=
    fun piece hp kind hk => lexeme_of_mem_pieces hp hk
  have hline : ({} : Position).line = ({} : Position).line := rfl
  have hbody := forall₂_tokensFrom_withoutReturns hlexeme hline
  have hfinish := Position.line_after_withoutReturns hline source.toList
  rw [← pieces_withoutReturns h] at hbody
  rw [Scan.tokens, Scan.tokens, scan, scan, String.toList_ofList]
  exact List.rel_append hbody (.cons ⟨rfl, hfinish.symm, rfl, rfl, fun _ => ⟨rfl, rfl⟩⟩ .nil)

theorem reports_withoutReturns :
    (scan (String.ofList (withoutReturns source.toList))).reports = (scan source).reports := by
  rw [scan, String.toList_ofList, pieces_withoutReturns h]
  exact reportsFrom_withoutReturns _ rfl

theorem readStrictly_withoutReturns (filename other : String) :
    let unified := String.ofList (withoutReturns source.toList)
    (∀ e, readStrictly source filename = .error e ↔ readStrictly unified other = .error e) ∧
      ∀ ts, readStrictly source filename = .ok ts →
        ∃ us, readStrictly unified other = .ok us ∧ List.Forall₂ Token.AgreesWithoutReturns ts us := by
  intro unified
  have hreports : (scan unified).reports = (scan source).reports := reports_withoutReturns h
  cases hr : (scan source).reports with
  | nil =>
    rw [hr] at hreports
    rw [readStrictly_of_reports_nil hr, readStrictly_of_reports_nil hreports]
    refine ⟨fun e => iff_of_false nofun nofun, fun ts hts => ?_⟩
    cases hts
    exact ⟨_, rfl, forall₂_tokens_withoutReturns h⟩
  | cons r more =>
    rw [hr] at hreports
    rw [readStrictly_of_reports_cons hr, readStrictly_of_reports_cons hreports]
    exact ⟨fun e => Iff.rfl, nofun⟩

end

/-- A source in which every carriage return stands before a newline yields the same tokens on the same
lines as it does without its carriage returns, apart from those inside strings, and the same reports. A
file that holds its bytes is read as the source without them: a strict reading of the file fails exactly
if one of the source does, with the same error, and else gives the same tokens. -/
theorem scan_withoutReturns {source : String} (h : Paired source.toList) :
    let unified := String.ofList (withoutReturns source.toList)
    List.Forall₂ Token.AgreesWithoutReturns (scan source).tokens (scan unified).tokens ∧
    (scan unified).reports = (scan source).reports ∧
    ∀ (d : Directory) (path filename : String),
      d.lookup path = some (.file source.toUTF8.data.toList) →
      d.readText path = .ok unified ∧
      (∀ e, readStrictly source filename = .error e ↔
        readFileStrictly d path = .error (.lexical e)) ∧
      ∀ ts, readStrictly source filename = .ok ts →
        ∃ us, readFileStrictly d path = .ok us ∧ List.Forall₂ Token.AgreesWithoutReturns ts us := by
  intro unified
  refine ⟨forall₂_tokens_withoutReturns h, reports_withoutReturns h, fun d path filename hfile => ?_⟩
  have hread : d.readText path = .ok unified := by
    rw [readText_of_encode hfile (Utf8.toUTF8_eq_encode source).symm, normalise_of_paired h]
  obtain ⟨herror, hok⟩ := readStrictly_withoutReturns h filename path
  rw [readFileStrictly_of_readText hread path]
  refine ⟨hread, fun e => ?_, fun ts hts => ?_⟩
  · rw [herror e]
    cases readStrictly unified path <;> simp [Except.mapError]
  · obtain ⟨us, hus, hagree⟩ := hok ts hts
    exact ⟨us, congrArg (Except.mapError FileError.lexical) hus, hagree⟩

/-- Carriage returns after a half operator, in a string and in a comment that stays open. -/
theorem scan_withoutReturns_string :
    let source := "=\r\n\"b\r\nc\" /*\r\n"
    let unified := "=\n\"b\nc\" /*\n"
    let d : Directory := [({ text := "a.lox" }, .file source.toUTF8.data.toList)]
    Paired source.toList ∧
    List.Forall₂ Token.AgreesWithoutReturns (scan source).tokens (scan unified).tokens ∧
    (scan source).tokens.map Token.literal = [none, some (.text "b\r\nc"), none] ∧
    (scan unified).tokens.map Token.literal = [none, some (.text "b\nc"), none] ∧
    (scan source).reports = [⟨4, .unterminatedComment⟩] ∧
    d.readText "a.lox" = .ok unified ∧
    ∃ e, readStrictly source "<string>" = .error e ∧ readFileStrictly d "a.lox" = .error (.lexical e) := by
  intro source unified d
  have hpaired : Paired source.toList := by decide
  have hunified : String.ofList (withoutReturns source.toList) = unified := by decide
  have hunifiedReports : (scan unified).reports = [⟨4, .unterminatedComment⟩] := by decide +kernel
  have hfile : d.lookup "a.lox" = some (.file source.toUTF8.data.toList) := rfl
  have hscan := scan_withoutReturns hpaired
  simp only [hunified] at hscan
  obtain ⟨htokens, hreports, hfiles⟩ := hscan
  obtain ⟨hread, herror, -⟩ := hfiles d "a.lox" "<string>" hfile
  have hsource := hreports.symm.trans hunifiedReports
  have hfails := readStrictly_of_reports_cons hsource "<string>"
  exact ⟨hpaired, htokens, by decide +kernel, by decide +kernel, hsource, hread, _, hfails,
    (herror _).1 hfails⟩

end LoxFrontEnd
