/-!
# Line ends

Three ways to end a line: line feed, carriage return, and the two together. Text read from a file or a
prompt has each of them replaced by one line feed.
-/

namespace LoxFrontEnd.Newline

/-- Every line end becomes one line feed. -/
def normalise : List Char → List Char
  | [] => []
  | [c] => [if c = '\r' then '\n' else c]
  | c :: d :: rest =>
    if c = '\r' then
      if d = '\n' then '\n' :: normalise rest else '\n' :: normalise (d :: rest)
    else c :: normalise (d :: rest)

theorem return_notMem_normalise (text : List Char) : '\r' ∉ normalise text := by
  fun_induction normalise text with
  | case1 => simp
  | case2 c =>
    by_cases h : c = '\r'
    · simp [h]
    · simp [h, Ne.symm h]
  | case3 rest ih => simp [ih]
  | case4 d rest _ ih => simp [ih]
  | case5 c d rest hc ih => simp [ih, Ne.symm hc]

theorem normalise_eq_self {text : List Char} (h : '\r' ∉ text) : normalise text = text := by
  fun_induction normalise text with
  | case1 => rfl
  | case2 c =>
    have hc : c ≠ '\r' := fun he => h (he ▸ List.mem_singleton_self c)
    simp [hc]
  | case3 rest ih => simp at h
  | case4 d rest _ ih => simp at h
  | case5 c d rest hc ih => rw [ih (fun hm => h (List.mem_cons_of_mem c hm))]

/-! ### Lines -/

/-- The lines of a text, without their line feeds; a last line may lack its own. -/
def splitLines : List Char → List (List Char)
  | [] => []
  | c :: rest =>
    if c = '\n' then [] :: splitLines rest
    else
      match splitLines rest with
      | [] => [[c]]
      | line :: lines => (c :: line) :: lines

def inputLines (text : List Char) : List (List Char) := splitLines (normalise text)

end LoxFrontEnd.Newline
