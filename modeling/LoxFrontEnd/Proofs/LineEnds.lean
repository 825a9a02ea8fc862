import LoxFrontEnd.Text.Newline

/-!
# Line ends in texts

A text and what becomes of it when its line ends are unified. A carriage return with a line feed is one
line end, so a place between the two has no counterpart; every other place has one, and as many lines
end before it as line feeds stand before its counterpart.
-/

namespace LoxFrontEnd.Newline

/-! ### Unified texts -/

/-- The second text is the first one with each carriage return, together with a line feed that follows
it, replaced by one line feed. -/
inductive Unifies : List Char → List Char → Prop
  | nil : Unifies [] []
  | pair {text out : List Char} : Unifies text out → Unifies ('\r' :: '\n' :: text) ('\n' :: out)
  | lone {text out : List Char} :
      text.head? ≠ some '\n' → Unifies text out → Unifies ('\r' :: text) ('\n' :: out)
  | other {c : Char} {text out : List Char} :
      c ≠ '\r' → Unifies text out → Unifies (c :: text) (c :: out)

theorem normalise_pair (text : List Char) :
    normalise ('\r' :: '\n' :: text) = '\n' :: normalise text := by
  rw [normalise, if_pos rfl, if_pos rfl]

theorem normalise_lone {text : List Char} (h : text.head? ≠ some '\n') :
    normalise ('\r' :: text) = '\n' :: normalise text := by
  cases text with
  | nil => rfl
  | cons d rest =>
    have hd : d ≠ '\n' := fun he => h (congrArg some he)
    rw [normalise, if_pos rfl, if_neg hd]

theorem normalise_other {c : Char} (h : c ≠ '\r') (text : List Char) :
    normalise (c :: text) = c :: normalise text := by
  cases text with
  | nil => simp only [normalise, if_neg h]
  | cons d rest => rw [normalise, if_neg h]

theorem unifies_normalise (text : List Char) : Unifies text (normalise text) := by
  fun_induction normalise text with
  | case1 => exact .nil
  | case2 c =>
    by_cases hc : c = '\r'
    · subst hc
      exact .lone (by simp) .nil
    · rw [if_neg hc]
      exact .other hc .nil
  | case3 rest ih => exact .pair ih
  | case4 d rest hd ih =>
    refine .lone ?_ ih
    intro he
    exact hd (Option.some.inj he)
  | case5 c d rest hc ih => exact .other hc ih

theorem unifies_iff {text out : List Char} : Unifies text out ↔ out = normalise text := by
  constructor
  · intro h
    induction h with
    | nil => rfl
    | pair _ ih => rw [normalise_pair, ih]
    | lone hn _ ih => rw [normalise_lone hn, ih]
    | other hc _ ih => rw [normalise_other hc, ih]
  · rintro rfl
    exact unifies_normalise text

/-! ### Places -/

/-- The place after `m` characters of a text becomes the one after `k` characters of what the text is
unified to. -/
structure Becomes (text out : List Char) (m k : Nat) : Prop where
  within : m ≤ text.length
  before : Unifies (text.take m) (out.take k)
  after : Unifies (text.drop m) (out.drop k)

theorem head?_take_ne {c : Char} {text : List Char} (h : text.head? ≠ some c) (m : Nat) :
    (text.take m).head? ≠ some c := by
  rw [List.head?_take]
  split
  · simp
  · exact h

/-- Every place in a unified text is what some place became. -/
theorem exists_becomes {text out : List Char} (h : Unifies text out) (k : Nat) :
    ∃ m, Becomes text out m k := by
  induction h generalizing k with
  | nil => exact ⟨0, Nat.le_refl 0, by simpa using Unifies.nil, by simpa using Unifies.nil⟩
  | pair ht ih =>
    cases k with
    | zero => exact ⟨0, Nat.zero_le _, .nil, .pair ht⟩
    | succ k =>
      obtain ⟨m, hb⟩ := ih k
      exact ⟨m + 2, by simpa using hb.within, .pair hb.before, hb.after⟩
  | lone hn ht ih =>
    cases k with
    | zero => exact ⟨0, Nat.zero_le _, .nil, .lone hn ht⟩
    | succ k =>
      obtain ⟨m, hb⟩ := ih k
      exact ⟨m + 1, by simpa using hb.within, .lone (head?_take_ne hn m) hb.before, hb.after⟩
  | other hc ht ih =>
    cases k with
    | zero => exact ⟨0, Nat.zero_le _, .nil, .other hc ht⟩
    | succ k =>
      obtain ⟨m, hb⟩ := ih k
      exact ⟨m + 1, by simpa using hb.within, .other hc hb.before, hb.after⟩

/-! ### Lines -/

/-- A line ends with this character of the text: a line feed, or a carriage return that no line feed
follows. -/
def endsLine (text : List Char) (i : Nat) : Bool :=
  text[i]? == some '\n' || text[i]? == some '\r' && text[i + 1]? != some '\n'

/-- How many lines end within the first `n` characters of a text. -/
def linesEnded (text : List Char) (n : Nat) : Nat := (List.range n).countP (endsLine text)

theorem linesEnded_cons (c : Char) (text : List Char) (n : Nat) :
    linesEnded (c :: text) (n + 1) =
      (if c = '\n' ∨ c = '\r' ∧ text.head? ≠ some '\n' then 1 else 0) + linesEnded text n := by
  have hshift : endsLine (c :: text) ∘ Nat.succ = endsLine text := rfl
  have hfirst : endsLine (c :: text) 0 = true ↔ c = '\n' ∨ c = '\r' ∧ text.head? ≠ some '\n' := by
    simp [endsLine, List.head?_eq_getElem?]
  rw [linesEnded, List.range_succ_eq_map, List.countP_cons, List.countP_map, hshift, Nat.add_comm]
  simp only [hfirst, linesEnded]

/-- A carriage return at the end is a line end of its own, so no line feed follows it: the two would
have become one. -/
theorem head?_append_ne_of_lone {text out after rest : List Char} (hn : text.head? ≠ some '\n')
    (ht : Unifies text out) (ha : Unifies after rest)
    (h : Unifies ('\r' :: (text ++ after)) ('\n' :: (out ++ rest))) :
    (text ++ after).head? ≠ some '\n' := by
  cases ht with
  | nil =>
    intro he
    obtain ⟨more, rfl⟩ := List.head?_eq_some_iff.1 he
    rw [List.nil_append, List.nil_append, unifies_iff, normalise_pair, unifies_iff.1 ha,
      normalise_other (by decide), List.cons.injEq] at h
    have hlength := congrArg List.length h.2
    rw [List.length_cons] at hlength
    omega
  | pair _ => simp
  | lone _ _ => simp
  | other _ _ => simpa using hn

/-- Whatever lies before a place, as many lines end there as line feeds stand before its counterpart. -/
theorem count_unified {before after out rest : List Char} (hb : Unifies before out)
    (ha : Unifies after rest) (h : Unifies (before ++ after) (out ++ rest)) :
    out.count '\n' = linesEnded (before ++ after) before.length := by
  induction hb with
  | nil => rfl
  | @pair text out _ ih =>
    have hmore : Unifies (text ++ after) (out ++ rest) := by
      rw [List.cons_append, List.cons_append, List.cons_append, unifies_iff, normalise_pair,
        List.cons.injEq] at h
      exact unifies_iff.2 h.2
    rw [List.count_cons_self, ih hmore]
    simp only [List.length_cons, List.cons_append, linesEnded_cons]
    simp
    omega
  | @lone text out hn ht ih =>
    have hnext := head?_append_ne_of_lone hn ht ha h
    have hmore : Unifies (text ++ after) (out ++ rest) := by
      rw [List.cons_append, List.cons_append, unifies_iff, normalise_lone hnext,
        List.cons.injEq] at h
      exact unifies_iff.2 h.2
    rw [List.count_cons_self, ih hmore, List.length_cons, List.cons_append, linesEnded_cons,
      if_pos (.inr ⟨rfl, hnext⟩), Nat.add_comm]
  | @other c text out hc ht ih =>
    have hmore : Unifies (text ++ after) (out ++ rest) := by
      rw [List.cons_append, List.cons_append, unifies_iff, normalise_other hc,
        List.cons.injEq] at h
      exact unifies_iff.2 h.2
    rw [List.count_cons, ih hmore, List.length_cons, List.cons_append, linesEnded_cons]
    simp [hc, Nat.add_comm]

theorem count_take_of_becomes {text out : List Char} (h : Unifies text out) {m k : Nat}
    (hb : Becomes text out m k) : (out.take k).count '\n' = linesEnded text m := by
  have hwhole : Unifies (text.take m ++ text.drop m) (out.take k ++ out.drop k) := by
    rw [List.take_append_drop, List.take_append_drop]
    exact h
  have hcount := count_unified hb.before hb.after hwhole
  rw [List.take_append_drop, List.length_take, Nat.min_eq_left hb.within] at hcount
  exact hcount

/-! ### Paired line ends -/

def Paired (text : List Char) : Prop := ∀ i : Nat, text[i]? = some '\r' → text[i + 1]? = some '\n'

def withoutReturns (text : List Char) : List Char := text.filter (· != '\r')

instance (text : List Char) : Decidable (Paired text) :=
  decidable_of_iff (∀ i < text.length, text[i]? = some '\r' → text[i + 1]? = some '\n')
    ⟨fun h i hi => h i (List.getElem?_eq_some_iff.1 hi).1 hi, fun h i _ => h i⟩

namespace Paired

theorem tail {c : Char} {text : List Char} (h : Paired (c :: text)) : Paired text :=
  fun i => h (i + 1)

theorem of_append {text rest : List Char} (h : Paired (text ++ rest)) : Paired rest := by
  induction text with
  | nil => exact h
  | cons c text ih => exact ih h.tail

theorem exists_newline {text : List Char} (h : Paired ('\r' :: text)) : ∃ more, text = '\n' :: more :=
  List.head?_eq_some_iff.1 (List.head?_eq_getElem?.trans (h 0 rfl))

end Paired

theorem withoutReturns_return (text : List Char) : withoutReturns ('\r' :: text) = withoutReturns text :=
  List.filter_cons_of_neg (by decide)

theorem withoutReturns_cons {c : Char} (h : c ≠ '\r') (text : List Char) :
    withoutReturns (c :: text) = c :: withoutReturns text :=
  List.filter_cons_of_pos (bne_iff_ne.2 h)

theorem withoutReturns_append (text rest : List Char) :
    withoutReturns (text ++ rest) = withoutReturns text ++ withoutReturns rest :=
  List.filter_append text rest

theorem withoutReturns_eq_self {text : List Char} (h : '\r' ∉ text) : withoutReturns text = text :=
  List.filter_eq_self.2 fun _ hc => bne_iff_ne.2 (ne_of_mem_of_not_mem hc h)

theorem notMem_withoutReturns {d : Char} {text : List Char} (h : d ∉ text) : d ∉ withoutReturns text :=
  fun hm => h (List.mem_filter.1 hm).1

theorem count_withoutReturns (text : List Char) : (withoutReturns text).count '\n' = text.count '\n' :=
  List.count_filter (by decide)

/-- To unify paired line ends is to drop the carriage returns. -/
theorem normalise_of_paired {text : List Char} (h : Paired text) :
    normalise text = withoutReturns text := by
  induction text with
  | nil => rfl
  | cons c text ih =>
    by_cases hc : c = '\r'
    · subst hc
      obtain ⟨more, rfl⟩ := h.exists_newline
      have hmore := ih h.tail
      rw [normalise_other (by decide)] at hmore
      rw [normalise_pair, withoutReturns_return, hmore]
    · rw [normalise_other hc, withoutReturns_cons hc, ih h.tail]

end LoxFrontEnd.Newline
