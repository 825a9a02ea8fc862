import LoxFrontEnd.Proofs.Cursor
import LoxFrontEnd.Proofs.Segmentation

/-!
# Rounds of a cursor

What a cursor knows, and what one round does. Between two pieces it knows nothing but its place; within
a piece it knows what it has read of the piece. In both cases what it has found so far and what is still
to come make up the whole scan. No round traps, and each keeps all this and takes a character or goes
back to the main loop.
-/

namespace LoxFrontEnd

theorem Literal.ofLexeme?_ofWord (word : String) (text : List Char) :
    ofLexeme? (.ofWord word) text = none := by
  unfold Kind.ofWord
  split
  · rfl
  · rfl

namespace Cursor

theorem ok_bind {ε α β : Type} (a : α) (f : α → Except ε β) : (Except.ok a >>= f) = f a := rfl

/-! ### Within a piece -/

def closeLevels? : Nat → List Char → Option (List Char × List Char)
  | 0, rest => some ([], rest)
  | depth + 1, rest => closeComment? depth rest

theorem closeLevels?_opening (depth : Nat) (rest : List Char) :
    closeLevels? (depth + 1) ('/' :: '*' :: rest) =
      (closeLevels? (depth + 2) rest).map fun r => ('/' :: '*' :: r.1, r.2) :=
  closeComment?_opening depth rest

theorem closeLevels?_closing (depth : Nat) (rest : List Char) :
    closeLevels? (depth + 1) ('*' :: '/' :: rest) =
      (closeLevels? depth rest).map fun r => ('*' :: '/' :: r.1, r.2) := by
  rw [closeLevels?, closeComment?_closing]
  cases depth <;> rfl

theorem closeLevels?_char (depth : Nat) {c : Char} {rest : List Char}
    (h : beginsMark (c :: rest) = false) :
    closeLevels? (depth + 1) (c :: rest) =
      (closeLevels? (depth + 1) rest).map fun r => (c :: r.1, r.2) := by
  cases rest with
  | nil => cases depth <;> rfl
  | cons d rest => exact closeComment?_char depth (List.cons_ne_nil d rest) h

/-- A mark is recognised by the next two characters, and at the end of the source there is none. -/
theorem beginsMark_iff_headD (c : Char) (rest : List Char) :
    beginsMark (c :: rest) = true ↔
      (c = '/' ∧ rest.headD '\x00' = '*') ∨ (c = '*' ∧ rest.headD '\x00' = '/') := by
  cases rest with
  | nil => simp [beginsMark]
  | cons d rest => exact beginsMark_cons_cons c d rest

/-- What has been read of a piece in an inner loop, and what is left of the source. -/
inductive Loop.Underway : Loop → List Char → List Char → Prop
  | lineComment {inside rest : List Char} :
      '\n' ∉ inside → Underway .lineComment ('/' :: '/' :: inside) rest
  | blockComment {depth : Nat} {inside rest : List Char} :
      closeComment? 0 (inside ++ rest) =
        (closeLevels? depth rest).map (fun r => (inside ++ r.1, r.2)) →
      Underway (.blockComment depth) ('/' :: '*' :: inside) rest
  | string {inside rest : List Char} : '"' ∉ inside → Underway .string ('"' :: inside) rest
  | whole {c : Char} {more rest : List Char} :
      c.isDigit = true → (∀ d ∈ more, d.isDigit = true) → Underway .whole (c :: more) rest
  | fraction {c : Char} {more fraction rest : List Char} :
      c.isDigit = true → (∀ d ∈ more, d.isDigit = true) → (∀ d ∈ fraction, d.isDigit = true) →
      (fraction = [] → leads Char.isDigit rest = true) →
      Underway .fraction (c :: (more ++ '.' :: fraction)) rest
  | word {c : Char} {more rest : List Char} :
      isWordStart c = true → (∀ d ∈ more, isWordPart d = true) → Underway .word (c :: more) rest

theorem Loop.Underway.comment_append {depth depth' : Nat} {inside rest : List Char}
    (new : List Char)
    (h : closeComment? 0 (inside ++ (new ++ rest)) =
      (closeLevels? depth (new ++ rest)).map fun r => (inside ++ r.1, r.2))
    (hnew : closeLevels? depth (new ++ rest) =
      (closeLevels? depth' rest).map fun r => (new ++ r.1, r.2)) :
    Underway (.blockComment depth') ('/' :: '*' :: (inside ++ new)) rest := by
  refine .blockComment ?_
  rw [List.append_assoc, h, hnew, Option.map_map]
  simp only [Function.comp_def, List.append_assoc]

section

variable {σ : Type} {source read rest : List Char} {emit : σ → Int → String → σ} {cur : Cursor σ}
  {c : Char} {goal : List Token × σ}

def origin (cur : Cursor σ) : Position := ⟨cur.startLine, cur.start⟩

def here (cur : Cursor σ) : Position := ⟨cur.line, cur.current⟩

theorem countLine_of_ne (h : c ≠ '\n') : cur.countLine c = cur := by
  rw [countLine, if_neg h]

/-- All that a cursor will have found in the end, if the pieces of `text` come next. -/
def outlook (emit : σ → Int → String → σ) (cur : Cursor σ) (p : Position) (text : List Char) :
    List Token × σ :=
  (cur.tokens ++ (tokensFrom p (pieces text) ++ [Token.endOfInput (p.after text)]),
    (reportsFrom p (pieces text)).foldl (fun s r => emit s r.line r.message) cur.sink)

/-- The cursor has read some characters of a piece, and is on the way to `goal`. -/
structure Reads (source : List Char) (emit : σ → Int → String → σ) (goal : List Token × σ)
    (cur : Cursor σ) (read rest : List Char) : Prop where
  place : source.drop cur.start = read ++ rest
  current : cur.current = cur.start + read.length
  start_le : cur.start ≤ source.length
  line : cur.line = cur.startLine + read.count '\n'
  outlook_eq : cur.outlook emit cur.origin (read ++ rest) = goal

/-- The cursor is in the source, and on the way to `goal`. -/
inductive Sound (source : List Char) (emit : σ → Int → String → σ) (goal : List Token × σ) :
    Cursor σ → Prop
  | between {cur : Cursor σ} :
      cur.loop = .main → cur.start ≤ cur.current → cur.current ≤ source.length →
      cur.outlook emit cur.here (source.drop cur.current) = goal → Sound source emit goal cur
  | within {cur : Cursor σ} {read rest : List Char} :
      cur.loop.Underway read rest → Reads source emit goal cur read rest → Sound source emit goal cur

/-- A round takes a character or goes back to the main loop. -/
def Moves (cur next : Cursor σ) : Prop :=
  cur.current < next.current ∨
    (cur.loop ≠ .main ∧ next.loop = .main ∧ next.current = cur.current)

/-- The next round keeps the cursor on its way. -/
def GoesOn (source : List Char) (emit : σ → Int → String → σ) (goal : List Token × σ)
    (cur : Cursor σ) : Prop :=
  ∃ next, cur.step source emit = .ok (some next) ∧ Sound source emit goal next ∧ Moves cur next

namespace Reads

theorem drop_current (h : Reads source emit goal cur read rest) :
    source.drop cur.current = rest := by
  rw [h.current]
  exact drop_add_of_drop_eq h.place

theorem start_le_current (h : Reads source emit goal cur read rest) : cur.start ≤ cur.current := by
  rw [h.current]
  exact Nat.le_add_right _ _

theorem current_le (h : Reads source emit goal cur read rest) : cur.current ≤ source.length := by
  have hlength := congrArg List.length h.place
  have hstart := h.start_le
  rw [List.length_drop, List.length_append] at hlength
  rw [h.current]
  omega

theorem lexeme_eq (h : Reads source emit goal cur read rest) : cur.lexeme source = read := by
  rw [lexeme, slice, h.place, h.current, Nat.add_sub_cancel_left, List.take_left]

theorem here_eq (h : Reads source emit goal cur read rest) : cur.here = cur.origin.after read := by
  rw [here, h.line, h.current, Int.natCast_add]
  rfl

/-! ### Taking a character -/

theorem forward (h : Reads source emit goal cur read (c :: rest)) :
    Reads source emit goal (cur.countLine c).forward (read ++ [c]) rest where
  place := by
    rw [List.append_assoc]
    exact h.place
  current := by
    rw [List.length_append, List.length_singleton, ← Nat.add_assoc]
    exact congrArg (· + 1) h.current
  start_le := h.start_le
  line := by
    have hline := h.line
    show (if c = '\n' then cur.line + 1 else cur.line) = cur.startLine + _
    rw [List.count_append]
    split
    · next hc =>
      subst hc
      rw [List.count_singleton_self]
      omega
    · next hc =>
      rw [List.count_singleton, if_neg (by simpa using hc)]
      omega
  outlook_eq := by
    rw [List.append_assoc]
    exact h.outlook_eq

theorem forward_of_ne (h : Reads source emit goal cur read (c :: rest)) (hc : c ≠ '\n') :
    Reads source emit goal cur.forward (read ++ [c]) rest := by
  have hforward := h.forward
  rwa [countLine_of_ne hc] at hforward

theorem enter (h : Reads source emit goal cur read rest) (loop : Loop) :
    Reads source emit goal { cur with loop } read rest :=
  ⟨h.place, h.current, h.start_le, h.line, h.outlook_eq⟩

theorem goesOn_of_forward {next : Cursor σ} {more left : List Char}
    (h : Reads source emit goal next more left) (hu : next.loop.Underway more left)
    (hstep : cur.step source emit = .ok (some next)) (hlt : cur.current < next.current) :
    GoesOn source emit goal cur :=
  ⟨next, hstep, .within hu h, .inl hlt⟩

end Reads

/-! ### The end of a piece -/

def close (emit : σ → Int → String → σ) (cur : Cursor σ) (piece : Piece) : Cursor σ :=
  { cur with
    loop := .main
    tokens := cur.tokens ++ (piece.token? cur.origin).toList
    sink := (piece.report? cur.origin).toList.foldl (fun s r => emit s r.line r.message) cur.sink }

theorem close_trivia (text : List Char) :
    cur.close emit ⟨.trivia, text⟩ = { cur with loop := .main } := by
  rw [close, Piece.report?, Piece.token?]
  exact congrArg (fun ts => { cur with loop := .main, tokens := ts }) (List.append_nil _)

namespace Reads

theorem addToken_eq {kind : Kind} {literal : Option Literal}
    (h : Reads source emit goal cur read rest) (hl : literal = Literal.ofLexeme? kind read) :
    cur.addToken source kind literal = cur.close emit ⟨.token kind, read⟩ := by
  rw [addToken, h.lexeme_eq, hl]
  rfl

theorem complain_eq {fault : LexicalFault} (h : Reads source emit goal cur read rest) :
    cur.complain emit fault = cur.close emit ⟨.fault fault, read⟩ := by
  have hline : (cur.origin.after read).line = cur.line := h.line.symm
  rw [complain, close, Piece.report?, Piece.token?]
  simp only [Option.toList_some, Option.toList_none, List.foldl_cons, List.foldl_nil, hline,
    List.append_nil]
  rfl

theorem sound_close {e : Element} (h : Reads source emit goal cur read rest)
    (hcut : Cut.of? (read ++ rest) = some ⟨⟨e, read⟩, rest⟩) :
    Sound source emit goal (cur.close emit ⟨e, read⟩) := by
  refine .between rfl h.start_le_current h.current_le ?_
  have hgoal := h.outlook_eq
  have hdrop : source.drop (cur.close emit ⟨e, read⟩).current = rest := h.drop_current
  have hhere : (cur.close emit ⟨e, read⟩).here = cur.origin.after read := h.here_eq
  rw [outlook, pieces_of_cut hcut, tokensFrom, reportsFrom, List.foldl_append,
    Position.after_append, List.append_assoc] at hgoal
  rw [hdrop, hhere, outlook, ← hgoal, close, List.append_assoc]

/-- A round that ends an inner loop, and the piece with it. -/
theorem goesOn_of_close {e : Element} (h : Reads source emit goal cur read rest)
    (hloop : cur.loop ≠ .main) (he : ElementAt e read rest)
    (hrun : Piece.runsOn ⟨e, read⟩ rest = false)
    (hstep : cur.step source emit = .ok (some (cur.close emit ⟨e, read⟩))) :
    GoesOn source emit goal cur :=
  ⟨_, hstep, h.sound_close (he.cut_eq hrun), .inr ⟨hloop, rfl, rfl⟩⟩

end Reads

/-! ### Rounds of the inner loops -/

theorem goesOn_lineComment {inside : List Char} (hloop : cur.loop = .lineComment)
    (h : Reads source emit goal cur ('/' :: '/' :: inside) rest) (hn : '\n' ∉ inside) :
    GoesOn source emit goal cur := by
  have hpeek := peek_eq h.drop_current
  have hmain : cur.loop ≠ .main := by simp [hloop]
  have helement : ElementAt .trivia ('/' :: '/' :: inside) rest := .lineComment hn
  cases rest with
  | nil =>
    have hend := atEnd_nil h.drop_current
    refine h.goesOn_of_close hmain helement (by simp [Piece.runsOn, leads_nil]) ?_
    simp only [step, hloop, hpeek, ok_bind, hend, close_trivia]
    rfl
  | cons c rest =>
    have hend := atEnd_cons h.drop_current
    by_cases hc : c = '\n'
    · refine h.goesOn_of_close hmain helement (by simp [Piece.runsOn, leads_cons, hc]) ?_
      simp only [step, hloop, hpeek, ok_bind, close_trivia, List.headD_cons, hc]
      rfl
    · have hinside : '\n' ∉ inside ++ [c] := by simp [hn, Ne.symm hc]
      have hunder : cur.loop.Underway ('/' :: '/' :: (inside ++ [c])) rest := by
        rw [hloop]
        exact .lineComment hinside
      refine (h.forward_of_ne hc).goesOn_of_forward hunder ?_ (Nat.lt_succ_self _)
      simp only [step, hloop, hpeek, ok_bind, List.headD_cons, hend, advance_cons h.drop_current,
        ne_eq, hc, not_false_eq_true, and_self, if_true]
      rfl

theorem goesOn_string {inside : List Char} (hloop : cur.loop = .string)
    (h : Reads source emit goal cur ('"' :: inside) rest) (hq : '"' ∉ inside) :
    GoesOn source emit goal cur := by
  have hpeek := peek_eq h.drop_current
  have hmain : cur.loop ≠ .main := by simp [hloop]
  cases rest with
  | nil =>
    have hend := atEnd_nil h.drop_current
    refine h.goesOn_of_close hmain (.openString hq) rfl ?_
    rw [← h.complain_eq]
    simp only [step, hloop, hpeek, ok_bind, hend]
    rfl
  | cons c rest =>
    have hend := atEnd_cons h.drop_current
    by_cases hc : c = '"'
    · subst hc
      have hclosed := h.forward_of_ne (by decide)
      have hvalue : slice source (cur.start + 1) (cur.forward.current - 1) = inside := by
        have hdrop : source.drop (cur.start + 1) = inside ++ '"' :: rest := by
          rw [← List.drop_drop, h.place]
          rfl
        have hlength : cur.forward.current - 1 - (cur.start + 1) = inside.length := by
          have hcurrent := h.current
          rw [List.length_cons] at hcurrent
          show cur.current + 1 - 1 - (cur.start + 1) = inside.length
          omega
        rw [slice, hdrop, hlength, List.take_left]
      have hliteral : some (Literal.text (String.ofList inside)) =
          Literal.ofLexeme? .string ('"' :: (inside ++ ['"'])) := by simp [Literal.ofLexeme?]
      have htoken := hclosed.addToken_eq hliteral
      have helement : ElementAt (.token .string) ('"' :: (inside ++ ['"'])) rest :=
        .token (.string hq)
      refine ⟨_, ?_, hclosed.sound_close (e := .token .string) (helement.cut_eq rfl),
        .inl (Nat.lt_succ_self _)⟩
      rw [← htoken]
      simp only [step, hloop, hpeek, ok_bind, List.headD_cons, hend,
        advance_cons h.drop_current]
      simp only [ne_eq, not_true_eq_false, false_and, if_false, Bool.false_eq_true, ← hvalue]
      rfl
    · have hinside : '"' ∉ inside ++ [c] := by simp [hq, Ne.symm hc]
      have hunder : cur.loop.Underway ('"' :: (inside ++ [c])) rest := by
        rw [hloop]
        exact .string hinside
      have hadvance : (cur.countLine c).advance source = .ok (c, (cur.countLine c).forward) :=
        advance_cons h.drop_current
      refine h.forward.goesOn_of_forward hunder ?_ (Nat.lt_succ_self _)
      simp only [step, hloop, hpeek, ok_bind, List.headD_cons, hend, hadvance, ne_eq, hc,
        not_false_eq_true, and_self, if_true]
      rfl

theorem goesOn_word {more : List Char} (hloop : cur.loop = .word)
    (h : Reads source emit goal cur (c :: more) rest) (hc : isWordStart c = true)
    (hmore : ∀ d ∈ more, isWordPart d = true) : GoesOn source emit goal cur := by
  have hpeek := peek_eq h.drop_current
  have hmain : cur.loop ≠ .main := by simp [hloop]
  have hclass := apply_headD (p := isWordPart) rfl rest
  cases hl : leads isWordPart rest with
  | true =>
    obtain ⟨d, rest, rfl, hd⟩ := exists_cons_of_leads hl
    have hunder : cur.loop.Underway (c :: (more ++ [d])) rest := by
      rw [hloop]
      exact .word hc (List.forall_mem_append.2 ⟨hmore, List.forall_mem_singleton.2 hd⟩)
    refine (h.forward_of_ne (ne_of_class hd rfl)).goesOn_of_forward hunder ?_ (Nat.lt_succ_self _)
    simp only [step, hloop, hpeek, ok_bind, hclass, hl, advance_cons h.drop_current, if_true]
    rfl
  | false =>
    have hkind := Kind.classifies_ofWord (String.ofList (c :: more))
    have hrun := (Kind.runsOn_word hkind (c :: more) rest).trans hl
    refine h.goesOn_of_close hmain (.token (.word hc hmore hkind)) hrun ?_
    rw [← h.addToken_eq (Literal.ofLexeme?_ofWord _ _).symm]
    simp only [step, hloop, hpeek, ok_bind, hclass, hl, h.lexeme_eq]
    rfl

/-- The end of a number, which is a numeral, so its text has a value. -/
theorem Reads.addNumber_eq (h : Reads source emit goal cur read rest)
    (hl : Lexeme .number read) :
    cur.addNumber source = .ok (cur.close emit ⟨.token .number, read⟩) := by
  have htoken := h.addToken_eq (show _ = Literal.ofLexeme? .number read from rfl)
  rw [addNumber, readNumeral, h.lexeme_eq, if_pos hl.isNumeral]
  exact congrArg Except.ok htoken

theorem goesOn_whole {more : List Char} (hloop : cur.loop = .whole)
    (h : Reads source emit goal cur (c :: more) rest) (hc : c.isDigit = true)
    (hmore : ∀ d ∈ more, d.isDigit = true) : GoesOn source emit goal cur := by
  have hpeek := peek_eq h.drop_current
  have hnext := peekNext_eq h.drop_current
  have hmain : cur.loop ≠ .main := by simp [hloop]
  have hdigit := apply_headD (p := Char.isDigit) rfl rest
  cases hl : leads Char.isDigit rest with
  | true =>
    obtain ⟨d, rest, rfl, hd⟩ := exists_cons_of_leads hl
    have hunder : cur.loop.Underway (c :: (more ++ [d])) rest := by
      rw [hloop]
      exact .whole hc (List.forall_mem_append.2 ⟨hmore, List.forall_mem_singleton.2 hd⟩)
    refine (h.forward_of_ne (ne_of_class hd rfl)).goesOn_of_forward hunder ?_ (Nat.lt_succ_self _)
    simp only [step, hloop, hpeek, ok_bind, hdigit, hl, advance_cons h.drop_current, if_true]
    rfl
  | false =>
    have hpoint := apply_headD (p := (· == '.')) rfl rest
    have hfraction := apply_headD (p := Char.isDigit) rfl rest.tail
    have htest : (rest.headD '\x00' = '.' ∧ (rest.tail.headD '\x00').isDigit = true) ↔
        (leads (· == '.') rest && leads Char.isDigit rest.tail) = true := by
      rw [Bool.and_eq_true, ← hpoint, ← hfraction, beq_iff_eq]
    cases hp : leads (· == '.') rest && leads Char.isDigit rest.tail with
    | true =>
      rw [hp] at htest
      obtain ⟨hdot, htail⟩ := Bool.and_eq_true_iff.1 hp
      obtain ⟨d, rest, rfl, hd⟩ := exists_cons_of_leads hdot
      rw [beq_iff_eq] at hd
      subst hd
      have hreads := (h.forward_of_ne (by decide)).enter .fraction
      refine hreads.goesOn_of_forward (.fraction hc hmore (fun _ hm => by cases hm) fun _ => htail)
        ?_ (Nat.lt_succ_self _)
      simp only [step, hloop, hpeek, hnext, ok_bind, hdigit, hl, htest,
        advance_cons h.drop_current, if_true, Bool.false_eq_true, if_false]
      rfl
    | false =>
      rw [hp] at htest
      have hrun : Kind.number.runsOn (c :: more) rest = false := by
        rw [Kind.runsOn, hl, Bool.false_or, Bool.and_assoc, hp, Bool.and_false]
      have hlexeme : Lexeme .number (c :: more) := .whole hc hmore
      refine h.goesOn_of_close hmain (.token hlexeme) hrun ?_
      simp only [step, hloop, hpeek, hnext, ok_bind, hdigit, hl, htest, h.addNumber_eq hlexeme,
        Bool.false_eq_true, if_false]
      rfl

theorem goesOn_fraction {more fraction : List Char} (hloop : cur.loop = .fraction)
    (h : Reads source emit goal cur (c :: (more ++ '.' :: fraction)) rest) (hc : c.isDigit = true)
    (hmore : ∀ d ∈ more, d.isDigit = true) (hf : ∀ d ∈ fraction, d.isDigit = true)
    (hfirst : fraction = [] → leads Char.isDigit rest = true) : GoesOn source emit goal cur := by
  have hpeek := peek_eq h.drop_current
  have hmain : cur.loop ≠ .main := by simp [hloop]
  have hdigit := apply_headD (p := Char.isDigit) rfl rest
  cases hl : leads Char.isDigit rest with
  | true =>
    obtain ⟨d, rest, rfl, hd⟩ := exists_cons_of_leads hl
    have hunder : cur.loop.Underway (c :: (more ++ '.' :: fraction) ++ [d]) rest := by
      rw [hloop, List.cons_append, List.append_assoc, List.cons_append]
      refine .fraction hc hmore ?_ (by simp)
      exact List.forall_mem_append.2 ⟨hf, List.forall_mem_singleton.2 hd⟩
    refine (h.forward_of_ne (ne_of_class hd rfl)).goesOn_of_forward hunder ?_ (Nat.lt_succ_self _)
    simp only [step, hloop, hpeek, ok_bind, hdigit, hl, advance_cons h.drop_current, if_true]
    rfl
  | false =>
    cases fraction with
    | nil =>
      rw [hfirst rfl] at hl
      contradiction
    | cons d fraction =>
      obtain ⟨hd, hf⟩ := List.forall_mem_cons.1 hf
      have hlexeme : Lexeme .number (c :: (more ++ '.' :: d :: fraction)) := .decimal hc hmore hd hf
      have hrun : Kind.number.runsOn (c :: (more ++ '.' :: d :: fraction)) rest = false := by
        simp [Kind.runsOn, hl]
      refine h.goesOn_of_close hmain (.token hlexeme) hrun ?_
      simp only [step, hloop, hpeek, ok_bind, hdigit, hl, h.addNumber_eq hlexeme,
        Bool.false_eq_true, if_false]
      rfl

theorem goesOn_closedComment {inside : List Char} (hloop : cur.loop = .blockComment 0)
    (h : Reads source emit goal cur ('/' :: '*' :: inside) rest)
    (hc : closeComment? 0 (inside ++ rest) =
      (closeLevels? 0 rest).map fun r => (inside ++ r.1, r.2)) : GoesOn source emit goal cur := by
  have hmain : cur.loop ≠ .main := by simp [hloop]
  have hclosed : closeComment? 0 (inside ++ rest) = some (inside, rest) := by
    rw [hc, closeLevels?, Option.map_some, List.append_nil]
  refine h.goesOn_of_close hmain (.blockComment (closeComment?_eq_some_iff.1 hclosed).2) rfl ?_
  rw [step, hloop, close_trivia]

theorem goesOn_openComment {depth : Nat} {inside : List Char}
    (hloop : cur.loop = .blockComment (depth + 1))
    (h : Reads source emit goal cur ('/' :: '*' :: inside) rest)
    (hc : closeComment? 0 (inside ++ rest) =
      (closeLevels? (depth + 1) rest).map fun r => (inside ++ r.1, r.2)) :
    GoesOn source emit goal cur := by
  have hmain : cur.loop ≠ .main := by simp [hloop]
  have hpeek := peek_eq h.drop_current
  have hnext := peekNext_eq h.drop_current
  cases rest with
  | nil =>
    have hend := atEnd_nil h.drop_current
    have hopen : closeComment? 0 inside = none := by
      rw [List.append_nil] at hc
      rw [hc, closeLevels?, closeComment?, Option.map_none]
    refine h.goesOn_of_close hmain (.openComment (closeComment?_eq_none_iff.1 hopen)) rfl ?_
    rw [← h.complain_eq]
    simp only [step, hloop, hend]
    rfl
  | cons c rest =>
    have hend := atEnd_cons h.drop_current
    have hadvance := advance_cons h.drop_current
    by_cases hm : beginsMark (c :: rest) = true
    · obtain ⟨d, rest, rfl⟩ : ∃ d more, rest = d :: more := by
        cases rest with
        | nil => simp [beginsMark] at hm
        | cons d more => exact ⟨d, more, rfl⟩
      rcases (beginsMark_cons_cons c d rest).1 hm with ⟨rfl, rfl⟩ | ⟨rfl, rfl⟩
      · have hfirst := h.forward_of_ne (by decide)
        have hboth := (hfirst.forward_of_ne (by decide)).enter (.blockComment (depth + 2))
        have hunder := Loop.Underway.comment_append ['/', '*'] hc
          (closeLevels?_opening depth rest)
        rw [List.append_assoc] at hboth
        refine hboth.goesOn_of_forward hunder ?_ (Nat.lt_add_of_pos_right Nat.two_pos)
        simp only [step, hloop, hpeek, hnext, ok_bind, hend, hadvance,
          advance_cons hfirst.drop_current, List.headD_cons, List.tail_cons, and_self, if_true,
          Bool.false_eq_true, if_false]
        rfl
      · have hfirst := h.forward_of_ne (by decide)
        have hboth := (hfirst.forward_of_ne (by decide)).enter (.blockComment depth)
        have hunder := Loop.Underway.comment_append ['*', '/'] hc
          (closeLevels?_closing depth rest)
        rw [List.append_assoc] at hboth
        refine hboth.goesOn_of_forward hunder ?_ (Nat.lt_add_of_pos_right Nat.two_pos)
        simp only [step, hloop, hpeek, hnext, ok_bind, hend, hadvance,
          advance_cons hfirst.drop_current, List.headD_cons, List.tail_cons, and_self, if_true,
          Bool.false_eq_true, if_false]
        rfl
    · obtain ⟨hopen, hclose⟩ := not_or.1 (mt (beginsMark_iff_headD c rest).2 hm)
      rw [Bool.not_eq_true] at hm
      have hunder := Loop.Underway.comment_append [c] hc (closeLevels?_char depth hm)
      rw [← hloop] at hunder
      refine h.forward.goesOn_of_forward hunder ?_ (Nat.lt_succ_self _)
      simp only [step, hloop, hpeek, hnext, ok_bind, hend, hadvance, List.headD_cons,
        List.tail_cons, hopen, hclose, Bool.false_eq_true, if_false]
      rfl

/-! ### Rounds of the main loop -/

theorem Reads.sound_token {kind : Kind} (h : Reads source emit goal cur read rest)
    (hl : Lexeme kind read) (hrun : kind.runsOn read rest = false)
    (hnone : Literal.ofLexeme? kind read = none) :
    Sound source emit goal (cur.addToken source kind none) := by
  rw [h.addToken_eq hnone.symm]
  exact h.sound_close (hl.cut_eq hrun)

theorem dispatch_equalSuffixed {plain withEqual : Kind}
    (hm : (c, plain, withEqual) ∈ Kind.equalSuffixed) (h : Reads source emit goal cur [c] rest) :
    ∃ next, cur.dispatch source emit c = .ok next ∧ Sound source emit goal next ∧
      cur.current ≤ next.current := by
  have hnone : ∀ p ∈ Kind.equalSuffixed, ∀ text, Literal.ofLexeme? p.2.1 text = none ∧
      Literal.ofLexeme? p.2.2 text = none := by
    simp [Kind.equalSuffixed, Literal.ofLexeme?]
  cases hl : leads (· == '=') rest with
  | true =>
    obtain ⟨d, rest, rfl, hd⟩ := exists_cons_of_leads hl
    rw [beq_iff_eq] at hd
    subst hd
    have hboth := h.forward_of_ne (by decide)
    have hrun := Kind.runsOn_withEqual hm ([c] ++ ['=']) rest
    refine ⟨_, ?_, hboth.sound_token (.withEqual hm) hrun (hnone _ hm _).2, Nat.le_succ _⟩
    simp only [dispatch, Lead.of_equalSuffixed hm, accept_cons h.drop_current, ok_bind]
    rfl
  | false =>
    have hrun := (Kind.runsOn_plain hm [c] rest).trans hl
    refine ⟨_, ?_, h.sound_token (.plain hm) hrun (hnone _ hm _).1, Nat.le_refl _⟩
    simp only [dispatch, Lead.of_equalSuffixed hm, accept_of_not_leads h.drop_current hl, ok_bind]
    rfl

theorem dispatch_slash (h : Reads source emit goal cur ['/'] rest) :
    ∃ next, cur.dispatch source emit '/' = .ok next ∧ Sound source emit goal next ∧
      cur.current ≤ next.current := by
  cases hline : leads (· == '/') rest with
  | true =>
    obtain ⟨d, rest, rfl, hd⟩ := exists_cons_of_leads hline
    rw [beq_iff_eq] at hd
    subst hd
    have hboth := (h.forward_of_ne (by decide)).enter .lineComment
    refine ⟨_, ?_, .within (.lineComment List.not_mem_nil) hboth, Nat.le_succ _⟩
    simp only [dispatch, Lead.of_slash, accept_cons h.drop_current, ok_bind]
    rfl
  | false =>
    cases hblock : leads (· == '*') rest with
    | true =>
      obtain ⟨d, rest, rfl, hd⟩ := exists_cons_of_leads hblock
      rw [beq_iff_eq] at hd
      subst hd
      have hboth := (h.forward_of_ne (by decide)).enter (.blockComment 1)
      have hlevels : closeComment? 0 ([] ++ rest) =
          (closeLevels? 1 rest).map fun r => ([] ++ r.1, r.2) := by
        simp [closeLevels?]
      refine ⟨_, ?_, .within (.blockComment hlevels) hboth, Nat.le_succ _⟩
      simp only [dispatch, Lead.of_slash, accept_of_not_leads h.drop_current hline,
        accept_cons h.drop_current, ok_bind]
      rfl
    | false =>
      have hrun : Kind.slash.runsOn ['/'] rest = false := by
        cases rest with
        | nil => rfl
        | cons d rest =>
          rw [leads_cons] at hline hblock
          rw [Kind.runsOn, leads_cons, hline, hblock]
          rfl
      refine ⟨_, ?_, h.sound_token .slash hrun rfl, Nat.le_refl _⟩
      simp only [dispatch, Lead.of_slash, accept_of_not_leads h.drop_current hline,
        accept_of_not_leads h.drop_current hblock, ok_bind]
      rfl

/-- The first character of a piece leads into a loop or ends the piece. -/
theorem dispatch_sound (hloop : cur.loop = .main)
    (h : Reads source emit goal (cur.countLine c) [c] rest) :
    ∃ next, cur.dispatch source emit c = .ok next ∧ Sound source emit goal next ∧
      cur.current ≤ next.current := by
  have hfits := Lead.fits_of c
  have hline : Lead.of c ≠ .blank → Reads source emit goal cur [c] rest := by
    intro hb
    have hc : c ≠ '\n' := by
      rintro rfl
      exact hb Lead.of_newline
    rwa [countLine_of_ne hc] at h
  cases hc : Lead.of c with
  | single kind =>
    rw [hc] at hfits hline
    have hnone : ∀ p ∈ Kind.singles, ∀ text, Literal.ofLexeme? p.2 text = none := by
      simp [Kind.singles, Literal.ofLexeme?]
    have hrun := Kind.runsOn_single hfits [c] rest
    have hsound := (hline (by simp)).sound_token (.single hfits) hrun (hnone _ hfits _)
    exact ⟨_, by rw [dispatch, hc], hsound, Nat.le_refl _⟩
  | equalSuffixed plain withEqual =>
    rw [hc] at hfits hline
    exact dispatch_equalSuffixed hfits (hline (by simp))
  | slash =>
    rw [hc] at hfits hline
    cases hfits
    exact dispatch_slash (hline (by simp))
  | blank =>
    rw [hc] at hfits
    have hblank : ElementAt .trivia [c] rest := .blank hfits
    have hsound := h.sound_close (hblank.cut_eq (by simp [Piece.runsOn]))
    have hclose : (cur.countLine c).close emit ⟨.trivia, [c]⟩ = cur.countLine c := by
      rw [close_trivia, ← hloop]
      rfl
    rw [hclose] at hsound
    exact ⟨_, by rw [dispatch, hc], hsound, Nat.le_refl _⟩
  | quote =>
    rw [hc] at hfits hline
    cases hfits
    have hreads := (hline (by simp)).enter .string
    exact ⟨_, by rw [dispatch, hc], .within (.string List.not_mem_nil) hreads, Nat.le_refl _⟩
  | digit =>
    rw [hc] at hfits hline
    have hreads := (hline (by simp)).enter .whole
    exact ⟨_, by rw [dispatch, hc], .within (.whole hfits (by simp)) hreads, Nat.le_refl _⟩
  | word =>
    rw [hc] at hfits hline
    have hreads := (hline (by simp)).enter .word
    exact ⟨_, by rw [dispatch, hc], .within (.word hfits (by simp)) hreads, Nat.le_refl _⟩
  | nothing =>
    rw [hc] at hline
    have hreads := hline (by simp)
    have hcut : Cut.of? ([c] ++ rest) = some ⟨⟨.fault (.unexpected c), [c]⟩, rest⟩ :=
      congrArg some (Cut.first_nothing hc rest)
    have hsound := hreads.sound_close hcut
    rw [← hreads.complain_eq] at hsound
    exact ⟨_, by rw [dispatch, hc], hsound, Nat.le_refl _⟩

theorem goesOn_main (hloop : cur.loop = .main) (hle : cur.current ≤ source.length)
    (hdrop : source.drop cur.current = c :: rest)
    (hgoal : cur.outlook emit cur.here (source.drop cur.current) = goal) :
    GoesOn source emit goal cur := by
  let first : Cursor σ :=
    { cur with start := cur.current, startLine := cur.line, loop := .main }
  have hreads : Reads source emit goal first [] (c :: rest) :=
    { place := hdrop
      current := rfl
      start_le := hle
      line := (Int.add_zero _).symm
      outlook_eq := by
        rw [hdrop] at hgoal
        exact hgoal }
  obtain ⟨next, hnext, hsound, hcurrent⟩ := dispatch_sound (show first.forward.loop = .main from rfl) hreads.forward
  refine ⟨next, ?_, hsound, .inl (Nat.lt_of_succ_le hcurrent)⟩
  have hadvance : first.advance source = .ok (c, first.forward) := advance_cons hdrop
  simp only [step, hloop, atEnd_cons hdrop, Bool.false_eq_true, if_false]
  show (first.advance source >>= fun x => x.2.dispatch source emit x.1 >>= fun y => pure (some y)) = _
  rw [hadvance, ok_bind, hnext]
  rfl

/-! ### Every round -/

theorem Sound.bounds (h : Sound source emit goal cur) :
    cur.start ≤ cur.current ∧ cur.current ≤ source.length := by
  cases h with
  | between _ hstart hle _ => exact ⟨hstart, hle⟩
  | within _ hreads => exact ⟨hreads.start_le_current, hreads.current_le⟩

/-- A sound cursor is at the end with all that it should have found, or it goes on. -/
theorem Sound.goesOn_or_done (h : Sound source emit goal cur) :
    GoesOn source emit goal cur ∨
      (cur.step source emit = .ok none ∧ cur.loop = .main ∧ cur.current = source.length ∧
        (cur.tokens ++ [Token.endOfInput cur.here], cur.sink) = goal) := by
  cases h with
  | between hloop hstart hle hgoal =>
    cases hdrop : source.drop cur.current with
    | nil =>
      have hend := atEnd_nil hdrop
      refine .inr ⟨?_, hloop, Nat.le_antisymm hle (List.drop_eq_nil_iff.1 hdrop), ?_⟩
      · simp only [step, hloop, hend, if_true]
        rfl
      · rw [hdrop, outlook, pieces_nil, Position.after_nil] at hgoal
        exact hgoal
    | cons c rest => exact .inl (goesOn_main hloop hle hdrop hgoal)
  | within hunder hreads =>
    refine .inl ?_
    generalize hloop : cur.loop = loop at hunder
    cases hunder with
    | lineComment hn => exact goesOn_lineComment hloop hreads hn
    | @blockComment depth _ _ hc =>
      cases depth with
      | zero => exact goesOn_closedComment hloop hreads hc
      | succ depth => exact goesOn_openComment hloop hreads hc
    | string hq => exact goesOn_string hloop hreads hq
    | whole hc hmore => exact goesOn_whole hloop hreads hc hmore
    | fraction hc hmore hf hfirst => exact goesOn_fraction hloop hreads hc hmore hf hfirst
    | word hc hmore => exact goesOn_word hloop hreads hc hmore

end

end Cursor

end LoxFrontEnd
