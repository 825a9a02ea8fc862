import LoxFrontEnd.Proofs.Blanking
import LoxFrontEnd.Proofs.Restart

/-!
# Insertion

Blanks and comments put in front of a token. A blank comes first, so nothing before the token takes what
is put in; and all of it is whole, so it takes nothing of what comes after. Every token and report from
there on moves as far as the text put in is long, and no other changes.
-/

namespace LoxFrontEnd

/-! ### Fillers -/

/-- Blanks, closed block comments, and line comments with the newlines that end them. -/
inductive Filler : List Char → Prop
  | nil : Filler []
  | blank {c : Char} {more : List Char} : isBlank c = true → Filler more → Filler (c :: more)
  | blockComment {inside more : List Char} :
      CommentTail inside → Filler more → Filler ('/' :: '*' :: (inside ++ more))
  | lineComment {inside more : List Char} :
      '\n' ∉ inside → Filler more → Filler ('/' :: '/' :: (inside ++ '\n' :: more))

/-- A filler falls into trivia, whatever comes after it. -/
theorem Filler.exists_pieces {filler : List Char} (h : Filler filler) :
    ∃ ps, (∀ piece ∈ ps, piece.element = .trivia) ∧
      ∀ rest, pieces (filler ++ rest) = ps ++ pieces rest := by
  induction h with
  | nil => exact ⟨[], by simp, fun rest => rfl⟩
  | @blank c more hc _ ih =>
    obtain ⟨ps, htrivia, hps⟩ := ih
    refine ⟨Piece.blank c :: ps, List.forall_mem_cons.2 ⟨rfl, htrivia⟩, fun rest => ?_⟩
    rw [List.cons_append, pieces_cons, Cut.first_blank hc, List.cons_append, ← hps]
    rfl
  | @blockComment inside more hc _ ih =>
    obtain ⟨ps, htrivia, hps⟩ := ih
    refine ⟨⟨.trivia, '/' :: '*' :: inside⟩ :: ps, List.forall_mem_cons.2 ⟨rfl, htrivia⟩,
      fun rest => ?_⟩
    have hel : ElementAt .trivia ('/' :: '*' :: inside) [] := .blockComment hc
    have hcut : Cut.of? (('/' :: '*' :: inside) ++ (more ++ rest)) = _ := hel.cut_eq rfl
    rw [List.cons_append, List.cons_append, List.append_assoc, List.cons_append, ← hps]
    exact pieces_of_cut hcut
  | @lineComment inside more hn _ ih =>
    obtain ⟨ps, htrivia, hps⟩ := ih
    refine ⟨⟨.trivia, '/' :: '/' :: inside⟩ :: Piece.blank '\n' :: ps,
      List.forall_mem_cons.2 ⟨rfl, List.forall_mem_cons.2 ⟨rfl, htrivia⟩⟩, fun rest => ?_⟩
    have hel : ElementAt .trivia ('/' :: '/' :: inside) [] := .lineComment hn
    have hcut : Cut.of? (('/' :: '/' :: inside) ++ '\n' :: (more ++ rest)) = _ := hel.cut_eq rfl
    have hnewline := pieces_cons '\n' (more ++ rest)
    rw [Cut.first_blank (by decide)] at hnewline
    rw [List.cons_append, List.cons_append, List.append_assoc, List.cons_append, List.cons_append,
      List.cons_append, ← hps]
    exact (pieces_of_cut hcut).trans (congrArg _ hnewline)

theorem Filler.pieces_append {filler : List Char} (h : Filler filler) :
    (∀ piece ∈ pieces filler, piece.element = .trivia) ∧
      ∀ rest, pieces (filler ++ rest) = pieces filler ++ pieces rest := by
  obtain ⟨ps, htrivia, hps⟩ := h.exists_pieces
  have hfiller := hps []
  rw [List.append_nil, pieces_nil, List.append_nil] at hfiller
  rw [hfiller]
  exact ⟨htrivia, hps⟩

theorem tokensFrom_trivia {ps : List Piece} (h : ∀ piece ∈ ps, piece.element = .trivia)
    (p : Position) : tokensFrom p ps = [] := by
  rw [tokensFrom_eq_nil_iff]
  intro piece hp
  rw [Piece.isToken, h piece hp]

theorem reportsFrom_trivia {ps : List Piece} (h : ∀ piece ∈ ps, piece.element = .trivia)
    (p : Position) : reportsFrom p ps = [] := by
  rw [reportsFrom_eq_nil_iff]
  intro piece hp
  rw [Piece.isFaulty, h piece hp]

/-! ### In front of a token -/

theorem Cut.ne_newline_of_token {c : Char} {rest : List Char}
    (h : (Cut.first c rest).piece.isToken = true) : c ≠ '\n' := by
  rintro rfl
  rw [Cut.first_blank (by decide)] at h
  contradiction

/-- A blank runs on from no piece that something else than a newline can follow. -/
theorem Piece.runsOn_blank {piece : Piece} {c d : Char} {rest : List Char} (hc : isBlank c = true)
    (hd : d ≠ '\n') (h : piece.runsOn (d :: rest) = false) (more : List Char) :
    piece.runsOn (c :: more) = false := by
  unfold Piece.runsOn at h ⊢
  split at h
  · exact Kind.runsOn_blank hc _ _ _
  · rw [leads_cons, bne_iff_ne.2 hd, Bool.and_true] at h
    rw [h, Bool.false_and]
  · rfl
  · contradiction

/-- A blank and more in the place of a token and what follows it: the pieces before stay. -/
theorem pieces_blank_before {text : List Char} {before after : List Piece} {piece : Piece}
    (h : pieces text = before ++ piece :: after) (ht : piece.isToken = true) {c : Char}
    (hc : isBlank c = true) (more : List Char) :
    pieces (before.flatMap Piece.text ++ c :: more) = before ++ pieces (c :: more) := by
  obtain ⟨hbefore, hafter⟩ := pieces_of_append h
  rw [pieces_append_blank hc, hbefore]
  intro last hlast
  rw [hbefore] at hlast
  obtain ⟨front, rfl⟩ := List.getLast?_eq_some_iff.1 hlast
  -- what the token begins with did not run on from the piece before, and it is no newline
  have hseam : last.runsOn ((piece :: after).flatMap Piece.text) = false :=
    runsOn_of_pieces_append (h.trans (List.append_assoc front [last] _))
  cases htext : (piece :: after).flatMap Piece.text with
  | nil =>
    rw [htext, pieces_nil] at hafter
    contradiction
  | cons d rest =>
    rw [htext] at hseam hafter
    rw [pieces_cons] at hafter
    have hpiece := (List.cons.inj hafter).1
    exact Piece.runsOn_blank hc (Cut.ne_newline_of_token (hpiece ▸ ht)) hseam more

theorem pieces_insert {text filler : List Char} {before after : List Piece} {piece : Piece}
    (h : pieces text = before ++ piece :: after) (ht : piece.isToken = true) (hfiller : Filler filler)
    (hblank : leads isBlank filler = true) :
    pieces (before.flatMap Piece.text ++ (filler ++ (piece :: after).flatMap Piece.text)) =
      before ++ (pieces filler ++ piece :: after) := by
  obtain ⟨c, more, rfl, hc⟩ := exists_cons_of_leads hblank
  have hmore := hfiller.pieces_append.2 ((piece :: after).flatMap Piece.text)
  rw [(pieces_of_append h).2] at hmore
  rw [← hmore]
  exact pieces_blank_before h ht hc _

theorem Piece.isToken_of_token? {piece : Piece} {p : Position} {t : Token}
    (h : piece.token? p = some t) : piece.isToken = true := by
  rw [← Bool.not_eq_false]
  intro hn
  rw [Piece.token?_of_not_isToken (by simp [hn])] at h
  contradiction

/-! ### Places -/

theorem lt_of_mem_tokensFrom {p : Position} {ps : List Piece} {t : Token}
    (hne : ∀ piece ∈ ps, piece.text ≠ []) (h : t ∈ tokensFrom p ps) :
    t.offset < p.offset + (ps.flatMap Piece.text).length := by
  induction ps generalizing p with
  | nil => contradiction
  | cons piece more ih =>
    obtain ⟨hpiece, hmore⟩ := List.forall_mem_cons.1 hne
    have hpos := List.length_pos_iff.2 hpiece
    rw [List.flatMap_cons, List.length_append]
    rw [tokensFrom, List.mem_append] at h
    rcases h with h | h
    · rw [Option.mem_toList] at h
      rw [(Piece.place_of_token? h).2]
      omega
    · have hlt := ih hmore h
      simp only [Position.after] at hlt
      omega

theorem placedFrom_append (n : Nat) (ps qs : List Piece) :
    placedFrom n (ps ++ qs) =
      placedFrom n ps ++ placedFrom (n + (ps.flatMap Piece.text).length) qs := by
  induction ps generalizing n with
  | nil => rfl
  | cons piece more ih =>
    rw [List.cons_append, placedFrom, placedFrom, ih, List.cons_append, List.flatMap_cons,
      List.length_append, Nat.add_assoc]

theorem place_of_mem_placedFrom {n : Nat} {ps : List Piece} {q : Nat × Piece}
    (hne : ∀ piece ∈ ps, piece.text ≠ []) (h : q ∈ placedFrom n ps) :
    n ≤ q.1 ∧ q.1 < n + (ps.flatMap Piece.text).length := by
  induction ps generalizing n with
  | nil => contradiction
  | cons piece more ih =>
    obtain ⟨hpiece, hmore⟩ := List.forall_mem_cons.1 hne
    have hpos := List.length_pos_iff.2 hpiece
    rw [List.flatMap_cons, List.length_append]
    rw [placedFrom, List.mem_cons] at h
    rcases h with rfl | h
    · simp only
      omega
    · have hplace := ih hmore h
      omega

def faults (text : List Char) : List (Nat × Piece) :=
  (placedFrom 0 (pieces text)).filter fun q => q.2.isFaulty

theorem faults_divided {text : List Char} {before after : List Piece}
    (h : pieces text = before ++ after) :
    let p := (before.flatMap Piece.text).length
    let first := (placedFrom 0 before).filter fun q => q.2.isFaulty
    let second := (placedFrom p after).filter fun q => q.2.isFaulty
    ((faults text).filter fun q => decide (q.1 < p)) = first ∧
      ((faults text).filter fun q => decide (p ≤ q.1)) = second := by
  intro p first second
  have hne : ∀ piece ∈ before ++ after, piece.text ≠ [] := by
    rw [← h]
    exact fun piece => text_ne_nil_of_mem_pieces
  obtain ⟨hbefore, hafter⟩ := List.forall_mem_append.1 hne
  have hlow : ∀ q ∈ first, q.1 < p := by
    intro q hq
    have hplace := place_of_mem_placedFrom hbefore (List.mem_of_mem_filter hq)
    omega
  have hhigh : ∀ q ∈ second, p ≤ q.1 := fun q hq =>
    (place_of_mem_placedFrom hafter (List.mem_of_mem_filter hq)).1
  have hall : faults text = first ++ second := by
    rw [faults, h, placedFrom_append, Nat.zero_add, List.filter_append]
  rw [hall, List.filter_append, List.filter_append]
  constructor
  · have hfirst : (first.filter fun q => decide (q.1 < p)) = first :=
      List.filter_eq_self.2 fun q hq => decide_eq_true (hlow q hq)
    have hsecond : (second.filter fun q => decide (q.1 < p)) = [] :=
      List.filter_eq_nil_iff.2 fun q hq => by simpa using hhigh q hq
    rw [hfirst, hsecond, List.append_nil]
  · have hfirst : (first.filter fun q => decide (p ≤ q.1)) = [] :=
      List.filter_eq_nil_iff.2 fun q hq => by simpa using hlow q hq
    have hsecond : (second.filter fun q => decide (p ≤ q.1)) = second :=
      List.filter_eq_self.2 fun q hq => decide_eq_true (hhigh q hq)
    rw [hfirst, hsecond, List.nil_append]

/-! ### Divided sources -/

theorem scan_of_pieces {source : String} {ps : List Piece} (h : pieces source.toList = ps) :
    scan source = ⟨tokensFrom {} ps, ({} : Position).after (ps.flatMap Piece.text), reportsFrom {} ps⟩ := by
  rw [← h, flatMap_text_pieces]
  rfl

/-- Trivia between the pieces of a source move what comes after them. -/
theorem scan_trivia_between {longer : String} {before trivia after : List Piece}
    (h : pieces longer.toList = before ++ (trivia ++ after))
    (htrivia : ∀ piece ∈ trivia, piece.element = .trivia) :
    let start := ({} : Position).after (before.flatMap Piece.text)
    let lines : Int := (trivia.flatMap Piece.text).count '\n'
    let characters : Int := (trivia.flatMap Piece.text).length
    scan longer =
      { body := tokensFrom {} before ++ (tokensFrom start after).map (·.moved lines characters)
        finish := (start.after (after.flatMap Piece.text)).moved lines characters
        reports := reportsFrom {} before ++ (reportsFrom start after).map (·.moved lines) } := by
  intro start lines characters
  have hnext : start.after (trivia.flatMap Piece.text) = start.moved lines characters := rfl
  rw [scan_of_pieces h, tokensFrom_append, tokensFrom_append, reportsFrom_append, reportsFrom_append,
    tokensFrom_trivia htrivia, reportsFrom_trivia htrivia, List.flatMap_append, List.flatMap_append,
    Position.after_append, Position.after_append, hnext, tokensFrom_moved, Position.after_moved,
    reportsFrom_moved _ lines characters]
  rfl

theorem map_moved_from {p : Int} {early late : List Token} (hearly : ∀ u ∈ early, u.offset < p)
    (hlate : ∀ u ∈ late, p ≤ u.offset) (lines characters : Int) :
    (early ++ late).map (fun u => if u.offset < p then u else u.moved lines characters) =
      early ++ late.map (·.moved lines characters) := by
  have hstay : early.map (fun u => if u.offset < p then u else u.moved lines characters) = early :=
    (List.map_congr_left fun u hu => if_pos (hearly u hu)).trans (List.map_id early)
  have hmove : late.map (fun u => if u.offset < p then u else u.moved lines characters) =
      late.map (·.moved lines characters) :=
    List.map_congr_left fun u hu => if_neg (Int.not_lt.2 (hlate u hu))
  rw [List.map_append, hstay, hmove]

section

variable {source : String} {before after : List Piece} (h : pieces source.toList = before ++ after)

include h

theorem tokens_divided :
    let start := ({} : Position).after (before.flatMap Piece.text)
    let finish := start.after (after.flatMap Piece.text)
    (scan source).tokens =
      tokensFrom {} before ++ (tokensFrom start after ++ [Token.endOfInput finish]) := by
  intro start finish
  rw [scan_of_pieces h, tokensFrom_append, List.flatMap_append, Position.after_append, Scan.tokens,
    List.append_assoc]

theorem map_moved_tokens (lines characters : Int) :
    let p : Int := (before.flatMap Piece.text).length
    let start := ({} : Position).after (before.flatMap Piece.text)
    let finish := start.after (after.flatMap Piece.text)
    (scan source).tokens.map (fun u => if u.offset < p then u else u.moved lines characters) =
      tokensFrom {} before ++
        (tokensFrom start after ++ [Token.endOfInput finish]).map (·.moved lines characters) := by
  intro p start finish
  have hstart : start.offset = p := Int.zero_add p
  have hne : ∀ piece ∈ before, piece.text ≠ [] := fun piece hp =>
    text_ne_nil_of_mem_pieces (h ▸ List.mem_append_left after hp)
  have hearly : ∀ u ∈ tokensFrom {} before, u.offset < p := fun u hu =>
    (lt_of_mem_tokensFrom hne hu).trans_eq (Int.zero_add p)
  have hlate : ∀ u ∈ tokensFrom start after ++ [Token.endOfInput finish], p ≤ u.offset := by
    intro u hu
    rw [← hstart]
    rcases List.mem_append.1 hu with hu | hu
    · exact offset_le_of_mem_tokensFrom hu
    · rw [List.mem_singleton.1 hu]
      simp only [Token.endOfInput, finish, Position.after]
      omega
  rw [tokens_divided h, map_moved_from hearly hlate]

theorem reports_divided :
    let p := (before.flatMap Piece.text).length
    let earlier := reportsFrom {} before
    let later := reportsFrom (({} : Position).after (before.flatMap Piece.text)) after
    (scan source).reports = earlier ++ later ∧
      List.Forall₂ (fun q (r : Report) => r.Concerns q.2)
        ((faults source.toList).filter fun q => q.1 < p) earlier ∧
      List.Forall₂ (fun q (r : Report) => r.Concerns q.2)
        ((faults source.toList).filter fun q => p ≤ q.1) later := by
  intro p earlier later
  have hunexpected : ∀ piece ∈ before ++ after, ∀ c,
      piece.element = .fault (.unexpected c) → piece.text = [c] := by
    rw [← h]
    exact fun piece hp c hc => (text_of_mem_pieces_unexpected hp hc).1
  obtain ⟨hbefore, hafter⟩ := List.forall_mem_append.1 hunexpected
  refine ⟨?_, ?_, ?_⟩
  · rw [scan_of_pieces h, reportsFrom_append]
  · rw [(faults_divided h).1]
    exact forall₂_reportsFrom hbefore
  · rw [(faults_divided h).2]
    exact forall₂_reportsFrom hafter

end

/-! ### In front of a token of a source -/

/-- A filler put in front of a token of a source moves that token and all that comes after it as far as
the filler is long. What comes before it stays, and so do all contents and messages. The reports that
move are those of the faulty pieces from the token on. -/
theorem scan_insertion {source filler : String} {t : Token} (ht : t ∈ (scan source).body)
    (hfiller : Filler filler.toList) (hblank : leads isBlank filler.toList = true) :
    ∃ p : Nat, t.offset = p ∧
      let lines : Int := filler.toList.count '\n'
      let characters : Int := filler.toList.length
      let longer :=
        String.ofList (source.toList.take p) ++ filler ++ String.ofList (source.toList.drop p)
      (scan longer).tokens =
        (scan source).tokens.map (fun u => if u.offset < (p : Int) then u else u.moved lines characters) ∧
      ∃ earlier later : List Report,
        (scan source).reports = earlier ++ later ∧
        List.Forall₂ (fun q (r : Report) => r.Concerns q.2)
          ((faults source.toList).filter fun q => q.1 < p) earlier ∧
        List.Forall₂ (fun q (r : Report) => r.Concerns q.2)
          ((faults source.toList).filter fun q => p ≤ q.1) later ∧
        (scan longer).reports = earlier ++ later.map (·.moved lines) := by
  obtain ⟨before, after, hbody⟩ := List.append_of_mem ht
  obtain ⟨qs, piece, rest, hpieces, -, htoken⟩ := exists_piece_of_tokensFrom hbody
  have hp : t.offset = (qs.flatMap Piece.text).length :=
    (Piece.place_of_token? htoken).2.trans (Int.zero_add _)
  have hsource : source.toList =
      qs.flatMap Piece.text ++ (piece :: rest).flatMap Piece.text := by
    rw [← flatMap_text_pieces source.toList, hpieces, List.flatMap_append]
  refine ⟨(qs.flatMap Piece.text).length, hp, ?_⟩
  rw [hsource, List.take_left, List.drop_left, ← hsource]
  intro lines characters longer
  have htext : longer.toList = qs.flatMap Piece.text ++
      (filler.toList ++ (piece :: rest).flatMap Piece.text) := by
    simp [longer]
  have hlonger := pieces_insert hpieces (Piece.isToken_of_token? htoken) hfiller hblank
  rw [← htext] at hlonger
  have hinserted := scan_trivia_between hlonger hfiller.pieces_append.1
  rw [flatMap_text_pieces] at hinserted
  obtain ⟨hreports, hearlier, hlater⟩ := reports_divided hpieces
  refine ⟨?_, _, _, hreports, hearlier, hlater, congrArg Scan.reports hinserted⟩
  rw [hinserted, map_moved_tokens hpieces, Scan.tokens, List.append_assoc, List.map_append]
  rfl

/-- A blank, a nested comment with a quote in it and a line comment between two tokens, with a report
before them and one after. -/
theorem scan_insertion_comments :
    let source := "a@/b \"c"
    let filler := " /*\"/**/*/// /*\n"
    let later : Token := ⟨.identifier, "b", none, 1, 3⟩
    later ∈ (scan source).body ∧ Filler filler.toList ∧ leads isBlank filler.toList = true ∧
    (scan ("a@/" ++ filler ++ "b \"c")).tokens.map (fun t => (t.lexeme, t.line, t.offset)) =
      [("a", 1, 0), ("/", 1, 2), ("b", 2, 19), ("", 2, 23)] ∧
    ∃ earlier r, (scan source).reports = earlier ++ [r] ∧
      (scan ("a@/" ++ filler ++ "b \"c")).reports = earlier ++ [r.moved 1] := by
  intro source filler later
  have hmem : later ∈ (scan source).body := by decide +kernel
  have hcomment : CommentTail ('"' :: '/' :: '*' :: (['*', '/'] ++ ['*', '/'])) :=
    .char rfl (.nested .close .close)
  have hfiller : Filler filler.toList := by
    have htext : filler.toList = ' ' :: '/' :: '*' ::
        ('"' :: '/' :: '*' :: (['*', '/'] ++ ['*', '/']) ++
          '/' :: '/' :: ([' ', '/', '*'] ++ ['\n'])) := by decide
    rw [htext]
    exact .blank rfl (.blockComment hcomment (.lineComment (by decide) .nil))
  have hblank : leads isBlank filler.toList = true := by decide
  obtain ⟨p, hp, htokens, earlier, others, hreports, -, hlater, hmoved⟩ :=
    scan_insertion hmem hfiller hblank
  obtain rfl : p = 3 := (Int.ofNat.inj hp).symm
  have hlines : (filler.toList.count '\n' : Int) = 1 := by decide
  have hhead : String.ofList (source.toList.take 3) = "a@/" := by decide
  have htail : String.ofList (source.toList.drop 3) = "b \"c" := by decide
  simp only [hhead, htail] at htokens hmoved
  refine ⟨hmem, hfiller, hblank, ?_, ?_⟩
  · rw [htokens]
    decide +kernel
  · have hone : others.length = 1 := hlater.length_eq.symm.trans (by decide +kernel)
    obtain ⟨r, rfl⟩ := List.length_eq_one_iff.1 hone
    rw [hlines] at hmoved
    exact ⟨earlier, r, hreports, hmoved⟩

end LoxFrontEnd
