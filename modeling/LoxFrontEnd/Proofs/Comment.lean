import LoxFrontEnd.Source.Piece

/-!
# Nested block comments

Block comments nest, so what follows an opening mark is given by a grammar and not by a depth: whole
comments, and characters that begin no mark, up to the closing mark. Cutting off a comment with a
counter of open marks finds exactly the texts of this grammar, and there is never a choice.
-/

namespace LoxFrontEnd

/-! ### The grammar -/

/-- A mark that opens or closes a comment stands at the head of the text. -/
def beginsMark : List Char → Bool
  | '/' :: '*' :: _ => true
  | '*' :: '/' :: _ => true
  | _ => false

/-- What follows the opening mark of a closed block comment, with its closing mark. -/
inductive CommentTail : List Char → Prop
  | close : CommentTail ['*', '/']
  | char {c : Char} {text : List Char} :
      beginsMark (c :: text) = false → CommentTail text → CommentTail (c :: text)
  | nested {inner text : List Char} :
      CommentTail inner → CommentTail text → CommentTail ('/' :: '*' :: (inner ++ text))

theorem beginsMark_cons_cons (c d : Char) (text : List Char) :
    beginsMark (c :: d :: text) = true ↔ (c = '/' ∧ d = '*') ∨ (c = '*' ∧ d = '/') := by
  constructor
  · intro h
    unfold beginsMark at h
    split at h <;> simp_all
  · intro h
    cases h with
    | inl h =>
      rw [h.1, h.2]
      rfl
    | inr h =>
      rw [h.1, h.2]
      rfl

theorem beginsMark_cons_append {text : List Char} (h : text ≠ []) (c : Char) (rest : List Char) :
    beginsMark (c :: (text ++ rest)) = beginsMark (c :: text) := by
  obtain ⟨d, more, rfl⟩ := List.exists_cons_of_ne_nil h
  rw [Bool.eq_iff_iff, List.cons_append, beginsMark_cons_cons, beginsMark_cons_cons]

theorem CommentTail.ne_nil {text : List Char} (h : CommentTail text) : text ≠ [] := by
  cases h <;> exact List.cons_ne_nil _ _

/-- A comment tail for each open mark, the innermost first; there is one more than is counted. -/
inductive CommentTails : Nat → List Char → Prop
  | one {text : List Char} : CommentTail text → CommentTails 0 text
  | more {first text : List Char} {depth : Nat} :
      CommentTail first → CommentTails depth text → CommentTails (depth + 1) (first ++ text)

namespace CommentTails

theorem opening {depth : Nat} {text : List Char} (h : CommentTails (depth + 1) text) :
    CommentTails depth ('/' :: '*' :: text) := by
  cases h with
  | more hfirst htext =>
    cases htext with
    | one hlast => exact .one (.nested hfirst hlast)
    | @more second text _ hsecond htext =>
      have htails := CommentTails.more (.nested hfirst hsecond) htext
      rw [List.cons_append, List.cons_append, List.append_assoc] at htails
      exact htails

theorem char {depth : Nat} {c : Char} {text : List Char} (hm : beginsMark (c :: text) = false)
    (h : CommentTails depth text) : CommentTails depth (c :: text) := by
  cases h with
  | one hlast => exact .one (.char hm hlast)
  | @more first text _ hfirst htext =>
    rw [beginsMark_cons_append hfirst.ne_nil] at hm
    exact .more (.char hm hfirst) htext

theorem ne_nil {depth : Nat} {text : List Char} (h : CommentTails depth text) : text ≠ [] := by
  cases h with
  | one hlast => exact hlast.ne_nil
  | more hfirst _ => exact List.append_ne_nil_of_left_ne_nil hfirst.ne_nil _

end CommentTails

/-! ### One step of the counter -/

theorem closeComment?_opening (depth : Nat) (rest : List Char) :
    closeComment? depth ('/' :: '*' :: rest) =
      (closeComment? (depth + 1) rest).map fun r => ('/' :: '*' :: r.1, r.2) := by
  cases depth with
  | zero => rfl
  | succ depth => rfl

theorem closeComment?_closing (depth : Nat) (rest : List Char) :
    closeComment? depth ('*' :: '/' :: rest) =
      match depth with
      | 0 => some (['*', '/'], rest)
      | depth + 1 => (closeComment? depth rest).map fun r => ('*' :: '/' :: r.1, r.2) := by
  cases depth with
  | zero => rfl
  | succ depth => rfl

theorem closeComment?_char (depth : Nat) {c : Char} {text : List Char} (hne : text ≠ [])
    (h : beginsMark (c :: text) = false) :
    closeComment? depth (c :: text) = (closeComment? depth text).map fun r => (c :: r.1, r.2) := by
  obtain ⟨d, rest, rfl⟩ := List.exists_cons_of_ne_nil hne
  have hm : ¬((c = '/' ∧ d = '*') ∨ (c = '*' ∧ d = '/')) := by
    rw [← beginsMark_cons_cons c d rest, h]
    exact Bool.false_ne_true
  rw [not_or] at hm
  cases depth with
  | zero => rw [closeComment?, if_neg hm.1, if_neg hm.2]
  | succ depth => rw [closeComment?, if_neg hm.1, if_neg hm.2]

/-! ### The counter and the grammar -/

/-- A comment tail ends one level of nesting, whatever stands after it. -/
theorem CommentTail.closeComment?_append {inner : List Char} (h : CommentTail inner) (depth : Nat)
    (rest : List Char) :
    closeComment? depth (inner ++ rest) =
      match depth with
      | 0 => some (inner, rest)
      | depth + 1 => (closeComment? depth rest).map fun r => (inner ++ r.1, r.2) := by
  induction h generalizing depth rest with
  | close => exact closeComment?_closing depth rest
  | @char c text hc ht ih =>
    have hmark := beginsMark_cons_append ht.ne_nil c rest
    rw [List.cons_append,
      closeComment?_char depth (List.append_ne_nil_of_left_ne_nil ht.ne_nil _) (hmark.trans hc),
      ih depth rest]
    cases depth with
    | zero => rfl
    | succ depth =>
      rw [Option.map_map]
      rfl
  | @nested inner text _ _ ihi iht =>
    have hi : closeComment? (depth + 1) (inner ++ (text ++ rest)) =
        (closeComment? depth (text ++ rest)).map fun r => (inner ++ r.1, r.2) :=
      ihi (depth + 1) (text ++ rest)
    rw [List.cons_append, List.cons_append, List.append_assoc, closeComment?_opening, hi,
      iht depth rest]
    cases depth with
    | zero => rfl
    | succ depth =>
      simp only [Option.map_map, Function.comp_def, List.cons_append, List.append_assoc]

theorem closeComment?_tails {depth : Nat} {text inside after : List Char}
    (h : closeComment? depth text = some (inside, after)) : CommentTails depth inside := by
  fun_induction closeComment? depth text generalizing inside after with
  | case1 => contradiction
  | case2 => contradiction
  | case3 depth c d rest hc ih =>
    obtain ⟨r, hr, he⟩ := Option.map_eq_some_iff.1 h
    cases he
    obtain ⟨rfl, rfl⟩ := hc
    exact (ih hr).opening
  | case4 c d rest _ hc =>
    cases h
    obtain ⟨rfl, rfl⟩ := hc
    exact .one .close
  | case5 c d rest _ hc depth ih =>
    obtain ⟨r, hr, he⟩ := Option.map_eq_some_iff.1 h
    cases he
    obtain ⟨rfl, rfl⟩ := hc
    exact .more .close (ih hr)
  | case6 depth c d rest ho hc ih =>
    obtain ⟨r, hr, he⟩ := Option.map_eq_some_iff.1 h
    cases he
    have htails := ih hr
    -- what was consumed begins as the text does, so no mark begins at `c` in it either
    have hmark := beginsMark_cons_append htails.ne_nil c r.2
    refine htails.char ?_
    rw [← hmark, closeComment?_append hr, ← Bool.not_eq_true, beginsMark_cons_cons]
    exact not_or.2 ⟨ho, hc⟩

theorem closeComment?_eq_some_iff {text inside after : List Char} :
    closeComment? 0 text = some (inside, after) ↔ inside ++ after = text ∧ CommentTail inside := by
  constructor
  · intro h
    refine ⟨closeComment?_append h, ?_⟩
    cases closeComment?_tails h with
    | one hlast => exact hlast
  · intro h
    rw [← h.1]
    exact h.2.closeComment?_append 0 after

theorem closeComment?_eq_none_iff {text : List Char} :
    closeComment? 0 text = none ↔ ∀ inside after, inside ++ after = text → ¬CommentTail inside := by
  constructor
  · intro h inside after ht hc
    rw [closeComment?_eq_some_iff.2 ⟨ht, hc⟩] at h
    contradiction
  · intro h
    cases hr : closeComment? 0 text with
    | none => rfl
    | some r =>
      obtain ⟨ht, hc⟩ := closeComment?_eq_some_iff.1 hr
      exact absurd hc (h r.1 r.2 ht)

end LoxFrontEnd
