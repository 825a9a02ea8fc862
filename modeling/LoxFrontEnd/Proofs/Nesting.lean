import LoxFrontEnd.Proofs.Comment
import LoxFrontEnd.Proofs.Concatenation
import Mathlib.Data.List.Infix
import Mathlib.Logic.Function.Iterate

/-!
# Balanced comments

Block comments as a matching of marks. A text is read as marks and single characters, from the left, and
it is balanced when its marks match. What the scanner takes for a comment is an opening mark, a balanced
text, and the closing mark after it. A slash at the end of the text would take the star of that mark for
a mark of its own, so the text may not end in one.
-/

namespace LoxFrontEnd

/-! ### Marks -/

inductive Mark where
  | opening
  | closing
  | char (c : Char)
deriving DecidableEq

/-- A text as marks, each taken where it first begins, and the characters that belong to none. -/
def readMarks : List Char → List Mark
  | [] => []
  | '/' :: '*' :: rest => .opening :: readMarks rest
  | '*' :: '/' :: rest => .closing :: readMarks rest
  | c :: rest => .char c :: readMarks rest

theorem readMarks_char {c : Char} {text : List Char} (h : beginsMark (c :: text) = false) :
    readMarks (c :: text) = .char c :: readMarks text := by
  rw [readMarks]
  · intro rest hc ht
    rw [hc, ht] at h
    contradiction
  · intro rest hc ht
    rw [hc, ht] at h
    contradiction

theorem beginsMark_eq_false {c : Char} {text : List Char}
    (ho : ∀ rest, c = '/' → text = '*' :: rest → False)
    (hc : ∀ rest, c = '*' → text = '/' :: rest → False) : beginsMark (c :: text) = false := by
  unfold beginsMark
  split
  · next he =>
    cases he
    exact (ho _ rfl rfl).elim
  · next he =>
    cases he
    exact (hc _ rfl rfl).elim
  · rfl

/-- A closing mark after a text changes what begins in it only if the text ends in a slash. -/
theorem beginsMark_append_closing (c : Char) (text rest : List Char) :
    beginsMark (c :: (text ++ '*' :: '/' :: rest)) = false ↔
      beginsMark (c :: text) = false ∧ (text = [] → c ≠ '/') := by
  cases text with
  | nil =>
    have hone : beginsMark [c] = false := by
      unfold beginsMark
      split <;> simp_all
    have htwo := beginsMark_cons_cons c '*' ('/' :: rest)
    rw [← Bool.not_eq_true, List.nil_append, htwo]
    simp [hone]
  | cons d more =>
    rw [beginsMark_cons_append (List.cons_ne_nil d more)]
    simp

theorem readMarks_ne_nil (c : Char) (text : List Char) : readMarks (c :: text) ≠ [] := by
  unfold readMarks
  split <;> simp_all

/-- The marks close `depth` comments besides those that they open, and never one that is not open. -/
structure Closes (depth : Nat) (marks : List Mark) : Prop where
  opened : ∀ front, front <+: marks → front.count .closing ≤ depth + front.count .opening
  closed : marks.count .closing = depth + marks.count .opening

theorem Closes.iff_counts {depth : Nat} {marks : List Mark} :
    Closes depth marks ↔
      (∀ front, front <+: marks → front.count .closing ≤ depth + front.count .opening) ∧
        marks.count .closing = depth + marks.count .opening :=
  ⟨fun h => ⟨h.opened, h.closed⟩, fun h => ⟨h.1, h.2⟩⟩

instance (depth : Nat) (marks : List Mark) : Decidable (Closes depth marks) :=
  decidable_of_iff
    ((∀ front ∈ marks.inits, front.count .closing ≤ depth + front.count .opening) ∧
      marks.count .closing = depth + marks.count .opening)
    (by simp only [List.mem_inits, Closes.iff_counts])

/-- Every closing mark matches an opening one before it, and none is left open. -/
def Balanced (text : List Char) : Prop := Closes 0 (readMarks text)
deriving Decidable

theorem forall_prefix_cons {α : Type} {P : List α → Prop} {a : α} {items : List α} :
    (∀ front, front <+: a :: items → P front) ↔ P [] ∧ ∀ front, front <+: items → P (a :: front) := by
  constructor
  · intro h
    exact ⟨h [] List.nil_prefix, fun front hf => h _ (List.cons_prefix_cons.2 ⟨rfl, hf⟩)⟩
  · intro ⟨hnil, hcons⟩ front hf
    rcases List.prefix_cons_iff.1 hf with rfl | ⟨more, rfl, hmore⟩
    · exact hnil
    · exact hcons more hmore

namespace Closes

theorem nil_iff {depth : Nat} : Closes depth [] ↔ depth = 0 := by
  constructor
  · intro h
    have hclosed := h.closed
    simp only [List.count_nil] at hclosed
    omega
  · intro h
    subst h
    refine ⟨fun front hf => ?_, rfl⟩
    rw [List.prefix_nil.1 hf]
    exact Nat.le_refl _

theorem opening_iff {depth : Nat} {marks : List Mark} :
    Closes depth (.opening :: marks) ↔ Closes (depth + 1) marks := by
  have hcount : ∀ front : List Mark,
      depth + (Mark.opening :: front).count .opening = depth + 1 + front.count .opening := by
    intro front
    rw [List.count_cons_self]
    omega
  have hsame : ∀ front : List Mark, (Mark.opening :: front).count .closing = front.count .closing :=
    fun front => List.count_cons_of_ne (by decide)
  simp only [iff_counts, forall_prefix_cons, hcount, hsame, List.count_nil, Nat.zero_le, true_and]

theorem closing_iff {depth : Nat} {marks : List Mark} :
    Closes depth (.closing :: marks) ↔ ∃ less, depth = less + 1 ∧ Closes less marks := by
  have hsame : ∀ front : List Mark, (Mark.closing :: front).count .opening = front.count .opening :=
    fun front => List.count_cons_of_ne (by decide)
  cases depth with
  | zero =>
    constructor
    · intro h
      have hfirst := h.opened [.closing] (List.cons_prefix_cons.2 ⟨rfl, List.nil_prefix⟩)
      contradiction
    · intro ⟨less, hless, _⟩
      contradiction
  | succ depth =>
    have hle : ∀ front : List Mark, front.count .closing + 1 ≤ depth + 1 + front.count .opening ↔
        front.count .closing ≤ depth + front.count .opening := by
      intro front
      omega
    have heq : marks.count .closing + 1 = depth + 1 + marks.count .opening ↔
        marks.count .closing = depth + marks.count .opening := by omega
    simp [iff_counts, forall_prefix_cons, hsame, hle, heq]

theorem char_iff {depth : Nat} {c : Char} {marks : List Mark} :
    Closes depth (.char c :: marks) ↔ Closes depth marks := by
  simp [iff_counts, forall_prefix_cons]

end Closes

/-! ### Fillings -/

/-- What stands before the mark that closes the last of `depth` comments and one more. -/
structure Fills (depth : Nat) (text : List Char) : Prop where
  closes : Closes depth (readMarks text)
  ending : (readMarks text).getLast? ≠ some (.char '/')

theorem getLast?_cons_ne {α : Type} {a b : α} (h : a ≠ b) (items : List α) :
    (a :: items).getLast? ≠ some b ↔ items.getLast? ≠ some b := by
  cases items with
  | nil => simp [h]
  | cons c more => rw [List.getLast?_cons_cons]

namespace Fills

theorem nil_iff {depth : Nat} : Fills depth [] ↔ depth = 0 :=
  ⟨fun h => Closes.nil_iff.1 h.closes, fun h => ⟨Closes.nil_iff.2 h, nofun⟩⟩

theorem opening_iff {depth : Nat} {text : List Char} :
    Fills depth ('/' :: '*' :: text) ↔ Fills (depth + 1) text := by
  have hlast := getLast?_cons_ne (a := Mark.opening) (b := .char '/') (by decide) (readMarks text)
  constructor
  · intro h
    exact ⟨Closes.opening_iff.1 h.closes, hlast.1 h.ending⟩
  · intro h
    exact ⟨Closes.opening_iff.2 h.closes, hlast.2 h.ending⟩

theorem closing_iff {depth : Nat} {text : List Char} :
    Fills depth ('*' :: '/' :: text) ↔ ∃ less, depth = less + 1 ∧ Fills less text := by
  have hlast := getLast?_cons_ne (a := Mark.closing) (b := .char '/') (by decide) (readMarks text)
  constructor
  · intro h
    obtain ⟨less, hless, hcloses⟩ := Closes.closing_iff.1 h.closes
    exact ⟨less, hless, hcloses, hlast.1 h.ending⟩
  · intro ⟨less, hless, h⟩
    exact ⟨Closes.closing_iff.2 ⟨less, hless, h.closes⟩, hlast.2 h.ending⟩

/-- A slash at the very end would become part of a mark. -/
theorem char_iff {depth : Nat} {c : Char} {text : List Char} (h : beginsMark (c :: text) = false) :
    Fills depth (c :: text) ↔ Fills depth text ∧ (text = [] → c ≠ '/') := by
  have hmarks := readMarks_char h
  have hlast : (readMarks (c :: text)).getLast? ≠ some (.char '/') ↔
      (readMarks text).getLast? ≠ some (.char '/') ∧ (text = [] → c ≠ '/') := by
    rw [hmarks]
    cases text with
    | nil => simp [readMarks]
    | cons d rest =>
      obtain ⟨mark, more, he⟩ := List.exists_cons_of_ne_nil (readMarks_ne_nil d rest)
      rw [he, List.getLast?_cons_cons]
      simp
  constructor
  · intro hf
    have hcloses := hf.closes
    rw [hmarks, Closes.char_iff] at hcloses
    obtain ⟨hending, hslash⟩ := hlast.1 hf.ending
    exact ⟨⟨hcloses, hending⟩, hslash⟩
  · intro ⟨hf, hslash⟩
    refine ⟨?_, hlast.2 ⟨hf.ending, hslash⟩⟩
    rw [hmarks, Closes.char_iff]
    exact hf.closes

/-! ### The counter and the marks -/

/-- Counting open marks comes to an end at the closing mark after a filling. -/
theorem closeComment?_eq {depth : Nat} {filling : List Char} (h : Fills depth filling)
    (rest : List Char) :
    closeComment? depth (filling ++ '*' :: '/' :: rest) = some (filling ++ ['*', '/'], rest) := by
  fun_induction readMarks filling generalizing depth with
  | case1 =>
    rw [nil_iff.1 h]
    exact closeComment?_closing 0 rest
  | case2 text ih =>
    rw [List.cons_append, List.cons_append, closeComment?_opening, ih (opening_iff.1 h)]
    rfl
  | case3 text ih =>
    obtain ⟨less, rfl, hless⟩ := closing_iff.1 h
    have hstep := closeComment?_closing (less + 1) (text ++ '*' :: '/' :: rest)
    simp only [ih hless] at hstep
    exact hstep
  | case4 c text ho hc ih =>
    have hmark := beginsMark_eq_false ho hc
    obtain ⟨htext, hslash⟩ := (char_iff hmark).1 h
    have hbefore := (beginsMark_append_closing c text rest).2 ⟨hmark, hslash⟩
    rw [List.cons_append, closeComment?_char depth (by simp) hbefore, ih htext]
    rfl

/-- With a closing mark at its end, a filling closes one comment more. -/
theorem append_closing {depth : Nat} {filling : List Char} (h : Fills depth filling) :
    Fills (depth + 1) (filling ++ ['*', '/']) := by
  fun_induction readMarks filling generalizing depth with
  | case1 => exact closing_iff.2 ⟨depth, rfl, h⟩
  | case2 text ih => exact opening_iff.2 (ih (opening_iff.1 h))
  | case3 text ih =>
    obtain ⟨less, hdepth, hless⟩ := closing_iff.1 h
    exact closing_iff.2 ⟨less + 1, congrArg (· + 1) hdepth, ih hless⟩
  | case4 c text ho hc ih =>
    have hmark := beginsMark_eq_false ho hc
    obtain ⟨htext, hslash⟩ := (char_iff hmark).1 h
    have hbefore := (beginsMark_append_closing c text []).2 ⟨hmark, hslash⟩
    exact (char_iff hbefore).2 ⟨ih htext, by simp⟩

end Fills

theorem exists_fills_of_closeComment? {depth : Nat} {text inside after : List Char}
    (h : closeComment? depth text = some (inside, after)) :
    ∃ filling, Fills depth filling ∧ inside = filling ++ ['*', '/'] := by
  fun_induction closeComment? depth text generalizing inside after with
  | case1 => contradiction
  | case2 => contradiction
  | case3 depth c d rest hc ih =>
    obtain ⟨r, hr, he⟩ := Option.map_eq_some_iff.1 h
    cases he
    obtain ⟨filling, hfills, hinside⟩ := ih hr
    refine ⟨c :: d :: filling, ?_, by rw [hinside]; rfl⟩
    rw [hc.1, hc.2]
    exact Fills.opening_iff.2 hfills
  | case4 c d rest _ hc =>
    cases h
    exact ⟨[], Fills.nil_iff.2 rfl, by rw [hc.1, hc.2]; rfl⟩
  | case5 c d rest _ hc depth ih =>
    obtain ⟨r, hr, he⟩ := Option.map_eq_some_iff.1 h
    cases he
    obtain ⟨filling, hfills, hinside⟩ := ih hr
    refine ⟨c :: d :: filling, ?_, by rw [hinside]; rfl⟩
    rw [hc.1, hc.2]
    exact Fills.closing_iff.2 ⟨depth, rfl, hfills⟩
  | case6 depth c d rest ho hc ih =>
    obtain ⟨r, hr, he⟩ := Option.map_eq_some_iff.1 h
    cases he
    obtain ⟨filling, hfills, hinside⟩ := ih hr
    -- no mark begins at `c` in the source, so none does in the filling
    have hbefore : beginsMark (c :: (filling ++ '*' :: '/' :: r.2)) = false := by
      have htext := closeComment?_append hr
      rw [hinside, List.append_assoc] at htext
      rw [← Bool.not_eq_true, show filling ++ '*' :: '/' :: r.2 = d :: rest from htext,
        beginsMark_cons_cons]
      exact not_or.2 ⟨ho, hc⟩
    obtain ⟨hmark, hslash⟩ := (beginsMark_append_closing c filling r.2).1 hbefore
    exact ⟨c :: filling, (Fills.char_iff hmark).2 ⟨hfills, hslash⟩, by rw [hinside]; rfl⟩

/-! ### Comments -/

/-- A balanced text that does not end in a slash on its own. -/
structure Enclosable (text : List Char) : Prop where
  balanced : Balanced text
  ending : (readMarks text).getLast? ≠ some (.char '/')

def enclosed (text : List Char) : List Char := '/' :: '*' :: (text ++ ['*', '/'])

theorem enclosable_iff_fills {text : List Char} : Enclosable text ↔ Fills 0 text :=
  ⟨fun h => ⟨h.balanced, h.ending⟩, fun h => ⟨h.closes, h.ending⟩⟩

theorem Enclosable.enclosed {text : List Char} (h : Enclosable text) :
    Enclosable (enclosed text) :=
  enclosable_iff_fills.2 (Fills.opening_iff.2 (enclosable_iff_fills.1 h).append_closing)

theorem Enclosable.iterate {text : List Char} (h : Enclosable text) (n : Nat) :
    Enclosable (LoxFrontEnd.enclosed^[n] text) := by
  induction n with
  | zero => exact h
  | succ n ih =>
    rw [Function.iterate_succ_apply']
    exact ih.enclosed

/-- A comment ends at the first place where it can. -/
theorem Enclosable.unique {inside other rest more : List Char} (h : Enclosable inside)
    (ho : Enclosable other) (ht : inside ++ '*' :: '/' :: rest = other ++ '*' :: '/' :: more) :
    other = inside := by
  have hinside := (enclosable_iff_fills.1 h).closeComment?_eq rest
  have hother := (enclosable_iff_fills.1 ho).closeComment?_eq more
  rw [ht, hother, Option.some.injEq, Prod.mk.injEq] at hinside
  exact List.append_cancel_right hinside.1

theorem Position.after_enclosed (p : Position) (inside : List Char) :
    p.after (enclosed inside) =
      ⟨p.line + inside.count '\n', p.offset + (enclosed inside).length⟩ := by
  have hcount : (enclosed inside).count '\n' = inside.count '\n' := by
    simp [enclosed]
  rw [after, hcount]

namespace Cut

theorem first_closedComment {inside : List Char} (h : Enclosable inside) (rest : List Char) :
    first '/' ('*' :: (inside ++ '*' :: '/' :: rest)) = trivia (enclosed inside) rest := by
  have hclose := (enclosable_iff_fills.1 h).closeComment?_eq rest
  rw [first_slash, slash, if_neg (by decide), if_pos rfl, hclose]
  rfl

theorem first_openComment {text : List Char}
    (h : ∀ inside rest, text = inside ++ '*' :: '/' :: rest → ¬Enclosable inside) :
    first '/' ('*' :: text) = fault .unterminatedComment ('/' :: '*' :: text) [] := by
  rw [first_slash, slash, if_neg (by decide), if_pos rfl]
  cases hr : closeComment? 0 text with
  | none => rfl
  | some r =>
    obtain ⟨filling, hfills, hinside⟩ := exists_fills_of_closeComment? hr
    have htext := closeComment?_append hr
    rw [hinside, List.append_assoc] at htext
    exact absurd (enclosable_iff_fills.2 hfills) (h filling r.2 htext.symm)

end Cut

theorem exists_fault_of_isOpen {piece : Piece} (h : piece.isOpen = true) :
    ∃ fault, piece.element = .fault fault ∧ ∀ c, fault ≠ .unexpected c := by
  unfold Piece.isOpen at h
  split at h
  · next he => exact ⟨_, he, nofun⟩
  · next he => exact ⟨_, he, nofun⟩
  · contradiction

/-- What is left open takes all that is left, so nothing comes after it. -/
theorem isOpen_of_pieces_append {text : List Char} {before after : List Piece}
    (h : pieces text = before ++ after) (hne : after ≠ []) :
    ∀ piece ∈ before, piece.isOpen = false := by
  fun_induction pieces text generalizing before with
  | case1 => exact absurd (List.append_eq_nil_iff.1 h.symm).2 hne
  | case2 c rest ih =>
    cases before with
    | nil => simp
    | cons piece before =>
      obtain ⟨hpiece, hrest⟩ := List.cons.inj h
      refine List.forall_mem_cons.2 ⟨?_, ih hrest⟩
      rw [← Bool.not_eq_true]
      intro hopen
      rw [← hpiece] at hopen
      obtain ⟨fault, he, hf⟩ := exists_fault_of_isOpen hopen
      have hcut : Cut.of? (c :: rest) = some (Cut.first c rest) := rfl
      have hend : (Cut.first c rest).rest = [] := Cut.rest_of_unterminated hcut he hf
      rw [hend, pieces_nil] at hrest
      exact hne (List.append_eq_nil_iff.1 hrest.symm).2

theorem scan_of_pieces_append {source : String} {before more : List Piece}
    (h : pieces source.toList = before ++ more) :
    (scan source).body =
        tokensFrom {} before ++ tokensFrom (({} : Position).after (before.flatMap Piece.text)) more ∧
      (scan source).reports =
        reportsFrom {} before ++ reportsFrom (({} : Position).after (before.flatMap Piece.text)) more := by
  constructor
  · rw [scan, h, tokensFrom_append]
  · rw [scan, h, reportsFrom_append]

/-- A text in a comment in a comment, and so on, is one piece. -/
theorem pieces_enclosed_iterate {inside : List Char} (h : Enclosable inside) (n : Nat)
    (rest : List Char) :
    pieces (enclosed^[n + 1] inside ++ rest) =
      ⟨.trivia, enclosed^[n + 1] inside⟩ :: pieces rest := by
  have hcut := Cut.first_closedComment (h.iterate n) rest
  have htext : enclosed^[n + 1] inside ++ rest =
      '/' :: '*' :: (enclosed^[n] inside ++ '*' :: '/' :: rest) := by
    rw [Function.iterate_succ_apply', enclosed, List.cons_append, List.cons_append,
      List.append_assoc]
    rfl
  rw [htext, pieces_cons, hcut, Function.iterate_succ_apply']
  rfl

/-- Comments by their marks, wherever the scanner comes to one after the pieces `before`. A comment is
closed if and only if an enclosable text and a closing mark follow its opening mark; there is one such
text, it is passed over with its marks, and only the newlines in it tell. A comment that is not closed
takes all that is left, and it is the one report of its kind. So an enclosable text can be commented
out, and what comes of that again. -/
theorem comment_nesting :
    (∀ (source : String) (before : List Piece) (text : List Char),
      pieces source.toList = before ++ pieces ('/' :: '*' :: text) →
      let cut := Cut.first '/' ('*' :: text)
      let start := ({} : Position).after (before.flatMap Piece.text)
      (cut.piece.isFaulty = false ↔
        ∃ inside rest, text = inside ++ '*' :: '/' :: rest ∧ Enclosable inside) ∧
      (∀ inside rest, text = inside ++ '*' :: '/' :: rest → Enclosable inside →
        (∀ other more, text = other ++ '*' :: '/' :: more → Enclosable other → other = inside) ∧
        cut = Cut.trivia (enclosed inside) rest ∧
        let next : Position :=
          ⟨start.line + inside.count '\n', start.offset + (enclosed inside).length⟩
        (scan source).body = tokensFrom {} before ++ tokensFrom next (pieces rest) ∧
        (scan source).reports = reportsFrom {} before ++ reportsFrom next (pieces rest)) ∧
      ((¬∃ inside rest, text = inside ++ '*' :: '/' :: rest ∧ Enclosable inside) →
        cut = Cut.fault .unterminatedComment ('/' :: '*' :: text) [] ∧
        (scan source).tokens = tokensFrom {} before ++ [Token.endOfInput (scan source).finish] ∧
        ∃ r, r.message = "Unterminated comment." ∧
          (scan source).reports = reportsFrom {} before ++ [r] ∧
          ∀ q ∈ reportsFrom {} before, q.message ≠ "Unterminated comment.")) ∧
    ∀ inside, Enclosable inside → ∀ (n : Nat) (rest : List Char),
      pieces (enclosed^[n + 1] inside ++ rest) =
        ⟨.trivia, enclosed^[n + 1] inside⟩ :: pieces rest := by
  refine ⟨fun source before text h => ?_, fun inside h n rest => ?_⟩
  · intro cut start
    have hsteps : pieces ('/' :: '*' :: text) = cut.piece :: pieces cut.rest := pieces_cons _ _
    rw [hsteps] at h
    obtain ⟨hbody, hreports⟩ := scan_of_pieces_append h
    have hclosed : ∀ inside rest, text = inside ++ '*' :: '/' :: rest → Enclosable inside →
        cut = Cut.trivia (enclosed inside) rest := by
      intro inside rest htext hinside
      subst htext
      exact Cut.first_closedComment hinside rest
    have hopen : (¬∃ inside rest, text = inside ++ '*' :: '/' :: rest ∧ Enclosable inside) →
        cut = Cut.fault .unterminatedComment ('/' :: '*' :: text) [] := by
      intro hnone
      exact Cut.first_openComment fun inside rest ht hi => hnone ⟨inside, rest, ht, hi⟩
    refine ⟨⟨fun hclean => ?_, ?_⟩,
      fun inside rest ht hi => ⟨fun other more ht' ho => hi.unique ho (ht.symm.trans ht'),
        hclosed inside rest ht hi, ?_⟩, fun hnone => ⟨hopen hnone, ?_, ?_⟩⟩
    · by_contra hnone
      rw [hopen hnone] at hclean
      contradiction
    · rintro ⟨inside, rest, ht, hi⟩
      rw [hclosed inside rest ht hi]
      rfl
    · intro next
      have hnext : start.after (enclosed inside) = next := start.after_enclosed inside
      rw [hbody, hreports, hclosed inside rest ht hi, ← hnext]
      exact ⟨rfl, rfl⟩
    · rw [Scan.tokens, hbody, hopen hnone]
      simp [Cut.fault, pieces_nil, tokensFrom, Piece.token?]
    · rw [hopen hnone] at hreports
      refine ⟨⟨(start.after ('/' :: '*' :: text)).line, .unterminatedComment⟩, rfl, ?_, ?_⟩
      · rw [hreports, Cut.fault, pieces_nil]
        rfl
      · have hbefore := isOpen_of_pieces_append h (List.cons_ne_nil _ _)
        intro q hq hmessage
        exact (not_leavesOpen_reportsFrom_iff {} before).2 hbefore q hq (.inr hmessage)
  · exact pieces_enclosed_iterate h n rest

/-- A comment in a comment, and then one that its slash does not close. -/
theorem comment_nesting_overlap :
    let source := "a/*x/**/\n*/b/*/"
    let inside := "x/**/\n".toList
    let first : List Piece := [⟨.token .identifier, ['a']⟩]
    let second : List Piece := first ++ [⟨.trivia, enclosed inside⟩, ⟨.token .identifier, ['b']⟩]
    pieces source.toList = first ++ pieces ('/' :: '*' :: (inside ++ '*' :: '/' :: "b/*/".toList)) ∧
    Enclosable inside ∧
    (scan source).body.map (fun t => (t.lexeme, t.line)) = [("a", 1), ("b", 2)] ∧
    pieces source.toList = second ++ pieces ('/' :: '*' :: ['/']) ∧
    (¬∃ inside rest, ['/'] = inside ++ '*' :: '/' :: rest ∧ Enclosable inside) ∧
    (scan source).reports.map Report.message = ["Unterminated comment."] ∧
    pieces (enclosed^[2] inside ++ []) = [⟨.trivia, enclosed^[2] inside⟩] := by
  intro source inside first second
  have hfirst : pieces source.toList =
      first ++ pieces ('/' :: '*' :: (inside ++ '*' :: '/' :: "b/*/".toList)) := by decide +kernel
  have hsecond : pieces source.toList = second ++ pieces ('/' :: '*' :: ['/']) := by decide +kernel
  have hinside : Enclosable inside := ⟨by decide, by decide⟩
  have hnone : ¬∃ inside rest, ['/'] = inside ++ '*' :: '/' :: rest ∧ Enclosable inside := by
    rintro ⟨inside, rest, ht, -⟩
    have hlength := congrArg List.length ht
    simp only [List.length_append, List.length_cons, List.length_nil] at hlength
    omega
  obtain ⟨-, hclosed, -⟩ := comment_nesting.1 source first _ hfirst
  obtain ⟨-, -, hbody, -⟩ := hclosed inside _ rfl hinside
  obtain ⟨-, -, hopen⟩ := comment_nesting.1 source second _ hsecond
  obtain ⟨-, -, r, hr, hreports, -⟩ := hopen hnone
  refine ⟨hfirst, hinside, ?_, hsecond, hnone, ?_, ?_⟩
  · rw [hbody]
    decide +kernel
  · rw [hreports, List.map_append, List.map_singleton, hr]
    decide
  · rw [comment_nesting.2 inside hinside 1 [], pieces_nil]

end LoxFrontEnd
