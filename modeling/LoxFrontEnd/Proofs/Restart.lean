import LoxFrontEnd.Proofs.Displacement
import LoxFrontEnd.Proofs.Seam

/-!
# Scanning in parts

A source can be cut where any of its tokens begins. The part before is scanned as it was in the whole;
the part after is scanned as if nothing had stood before it, and moved to where it begins. So there is
no state between tokens but the place.
-/

namespace LoxFrontEnd

/-! ### One scan after another -/

/-- A scan, and then another one that begins where the first one ended. -/
def Scan.andThen (s t : Scan) : Scan :=
  { body := s.body ++ t.body.map (·.moved (s.finish.line - 1) s.finish.offset)
    finish := t.finish.moved (s.finish.line - 1) s.finish.offset
    reports := s.reports ++ t.reports.map (·.moved (s.finish.line - 1)) }

theorem Position.moved_eq_self (p : Position) : ({} : Position).moved (p.line - 1) p.offset = p := by
  obtain ⟨line, offset⟩ := p
  simp only [moved, Position.mk.injEq]
  omega

theorem Scan.tokens_andThen (s t : Scan) :
    (s.andThen t).tokens =
      s.body ++ t.tokens.map (·.moved (s.finish.line - 1) s.finish.offset) := by
  rw [map_tokens_moved, ← List.append_assoc]
  rfl

/-- Where no piece lies across the place between two texts, they are scanned one after the other. -/
theorem scan_append_of_pieces {first second : String}
    (h : pieces (first.toList ++ second.toList) = pieces first.toList ++ pieces second.toList) :
    scan (first ++ second) = (scan first).andThen (scan second) := by
  have hstart : ({} : Position).moved ((scan first).finish.line - 1) (scan first).finish.offset =
      ({} : Position).after first.toList :=
    Position.moved_eq_self _
  rw [Scan.andThen, scan, String.toList_append, h, tokensFrom_append, reportsFrom_append,
    flatMap_text_pieces, Position.after_append, ← hstart, tokensFrom_moved, reportsFrom_moved,
    Position.after_moved]
  rfl

/-! ### Tokens and their pieces -/

theorem Piece.place_of_token? {piece : Piece} {p : Position} {t : Token}
    (h : piece.token? p = some t) : t.line = p.line ∧ t.offset = p.offset := by
  unfold token? at h
  split at h
  · cases h
    exact ⟨rfl, rfl⟩
  · cases h

theorem Piece.content_of_token? {piece : Piece} {p : Position} {t : Token}
    (h : piece.token? p = some t) :
    piece.element = .token t.kind ∧ t.lexeme.toList = piece.text := by
  unfold token? at h
  split at h
  · next kind he =>
    cases h
    exact ⟨he, String.toList_ofList⟩
  · cases h

/-- A token among those of some pieces is that of one of them, and the tokens before it are those of the
pieces before. -/
theorem exists_piece_of_tokensFrom {p : Position} {ps : List Piece} {before after : List Token}
    {t : Token} (h : tokensFrom p ps = before ++ t :: after) :
    ∃ qs piece more, ps = qs ++ piece :: more ∧ tokensFrom p qs = before ∧
      piece.token? (p.after (qs.flatMap Piece.text)) = some t := by
  induction ps generalizing p before with
  | nil => simp [tokensFrom] at h
  | cons piece ps ih =>
    rw [tokensFrom] at h
    -- what is found further on is found with this piece before it
    have hlater : ∀ others, tokensFrom (p.after piece.text) ps = others ++ t :: after →
        (piece.token? p).toList ++ others = before →
        ∃ qs q more, piece :: ps = qs ++ q :: more ∧ tokensFrom p qs = before ∧
          q.token? (p.after (qs.flatMap Piece.text)) = some t := by
      intro others hothers hbefore
      obtain ⟨qs, q, more, rfl, hqs, ht⟩ := ih hothers
      rw [← Position.after_append, ← List.flatMap_cons] at ht
      refine ⟨piece :: qs, q, more, rfl, ?_, ht⟩
      rw [tokensFrom, hqs, hbefore]
    cases hp : piece.token? p with
    | none =>
      rw [hp] at h hlater
      exact hlater before h rfl
    | some u =>
      rw [hp] at h hlater
      cases before with
      | nil =>
        obtain ⟨rfl, -⟩ := List.cons.inj h
        refine ⟨[], piece, ps, rfl, rfl, ?_⟩
        rw [List.flatMap_nil, Position.after_nil, hp]
      | cons b before =>
        obtain ⟨rfl, hmore⟩ := List.cons.inj h
        exact hlater before hmore rfl

/-- Before a token of a source stand the pieces that the tokens before it are made of; before the end of
the input stand all pieces. -/
theorem exists_pieces_of_tokens {source : String} {before after : List Token} {t : Token}
    (h : (scan source).tokens = before ++ t :: after) :
    ∃ qs rest, pieces source.toList = qs ++ rest ∧ tokensFrom {} qs = before ∧
      t.line = (({} : Position).after (qs.flatMap Piece.text)).line ∧
      t.offset = (({} : Position).after (qs.flatMap Piece.text)).offset := by
  have hall : tokensFrom {} (pieces source.toList) = before → t = Token.endOfInput (scan source).finish →
      ∃ qs rest, pieces source.toList = qs ++ rest ∧ tokensFrom {} qs = before ∧
        t.line = (({} : Position).after (qs.flatMap Piece.text)).line ∧
        t.offset = (({} : Position).after (qs.flatMap Piece.text)).offset := by
    rintro hbody rfl
    refine ⟨pieces source.toList, [], (List.append_nil _).symm, hbody, ?_⟩
    rw [flatMap_text_pieces]
    exact ⟨rfl, rfl⟩
  rw [Scan.tokens, List.append_eq_append_iff] at h
  rcases h with ⟨more, hbefore, hend⟩ | ⟨more, hbody, hend⟩
  · cases more with
    | nil => exact hall (hbefore.trans (List.append_nil _)).symm (List.cons.inj hend).1.symm
    | cons u more => simp at hend
  · cases more with
    | nil => exact hall (hbody.trans (List.append_nil _)) (List.cons.inj hend).1
    | cons u more =>
      obtain ⟨rfl, -⟩ := List.cons.inj hend
      obtain ⟨qs, piece, rest, hqs, hbefore, ht⟩ := exists_piece_of_tokensFrom hbody
      exact ⟨qs, piece :: rest, hqs, hbefore, Piece.place_of_token? ht⟩

/-! ### Cutting at a token -/

/-- A source cut where one of its tokens begins, the end of the input included. The tokens before it are
those of the first part, and it is the first token of the second part; every token and every report of
the second part is moved to where the part begins. -/
theorem scan_restart {source : String} {before after : List Token} {t : Token}
    (h : (scan source).tokens = before ++ t :: after) :
    ∃ p : Nat, t.offset = p ∧
      let head := String.ofList (source.toList.take p)
      let tail := String.ofList (source.toList.drop p)
      before = (scan head).tokens.dropLast ∧
      t :: after = (scan tail).tokens.map (·.moved (t.line - 1) p) ∧
      (scan source).reports =
        (scan head).reports ++ (scan tail).reports.map (·.moved (t.line - 1)) := by
  obtain ⟨qs, rest, hpieces, hbefore, hline, hoffset⟩ := exists_pieces_of_tokens h
  obtain ⟨hqs, hrest⟩ := pieces_of_append hpieces
  have hsource : source.toList = qs.flatMap Piece.text ++ rest.flatMap Piece.text := by
    rw [← flatMap_text_pieces source.toList, hpieces, List.flatMap_append]
  have hp : t.offset = (qs.flatMap Piece.text).length := by
    rw [hoffset, Position.after]
    exact Int.zero_add _
  refine ⟨(qs.flatMap Piece.text).length, hp, ?_⟩
  rw [hsource, List.take_left, List.drop_left]
  intro head tail
  have hscan : scan source = (scan head).andThen (scan tail) := by
    have htext : head ++ tail = source := by
      rw [← String.ofList_append, ← hsource, String.ofList_toList]
    rw [← htext]
    apply scan_append_of_pieces
    rw [← String.toList_append, htext, hpieces, String.toList_ofList, String.toList_ofList, hqs, hrest]
  have hbody : (scan head).body = before := by
    rw [scan, String.toList_ofList, hqs, hbefore]
  have hfinish : (scan head).finish = ({} : Position).after (qs.flatMap Piece.text) := by
    rw [scan, String.toList_ofList]
  rw [← hfinish] at hline hoffset
  rw [hscan, Scan.tokens_andThen, hbody, List.append_cancel_left_eq, ← hline, ← hoffset, hp] at h
  refine ⟨?_, h.symm, ?_⟩
  · rw [Scan.tokens, List.dropLast_concat, hbody]
  · rw [hscan, Scan.andThen, hline]

/-- Cut at a plus sign, with a report before it and one after. -/
theorem scan_restart_plus :
    let source := "a @\n+ \"b"
    let plus : Token := ⟨.plus, "+", none, 2, 4⟩
    (scan source).tokens = [⟨.identifier, "a", none, 1, 0⟩] ++ plus :: [Token.endOfInput ⟨2, 8⟩] ∧
    (scan "a @\n").tokens.dropLast = [⟨.identifier, "a", none, 1, 0⟩] ∧
    (scan "+ \"b").tokens.map (·.moved 1 4) = [plus, Token.endOfInput ⟨2, 8⟩] ∧
    (scan source).reports = (scan "a @\n").reports ++ (scan "+ \"b").reports.map (·.moved 1) := by
  intro source plus
  have htokens : (scan source).tokens =
      [⟨.identifier, "a", none, 1, 0⟩] ++ plus :: [Token.endOfInput ⟨2, 8⟩] := by
    decide +kernel
  have hhead : String.ofList (source.toList.take 4) = "a @\n" := by decide
  have htail : String.ofList (source.toList.drop 4) = "+ \"b" := by decide
  obtain ⟨p, hp, hparts⟩ := scan_restart htokens
  obtain rfl : p = 4 := (Int.ofNat.inj hp).symm
  simp only [hhead, htail] at hparts
  obtain ⟨hbefore, hafter, hreports⟩ := hparts
  exact ⟨htokens, hbefore.symm, hafter.symm, hreports⟩

end LoxFrontEnd
