/-!
# Lists in memory

A memory holds lists at places. A list is changed where it stands, or it is written anew behind all
others; either way, what is read at any other place stays as it is.
-/

namespace LoxFrontEnd

abbrev Memory (α : Type) := List (List α)

namespace Memory

variable {α : Type} {m : Memory α} {p q : Nat}

def read (m : Memory α) (p : Nat) : List α := m.getD p []

def push (m : Memory α) (p : Nat) (a : α) : Memory α := m.modify p (· ++ [a])

def clear (m : Memory α) (p : Nat) : Memory α := m.modify p fun _ => []

theorem length_push (m : Memory α) (p : Nat) (a : α) : (m.push p a).length = m.length :=
  List.length_modify _ _ _

theorem length_clear (m : Memory α) (p : Nat) : (m.clear p).length = m.length :=
  List.length_modify _ _ _

theorem read_push_self (h : p < m.length) (a : α) : (m.push p a).read p = m.read p ++ [a] := by
  simp [read, push, h]

theorem read_push_ne (h : q ≠ p) (a : α) : (m.push p a).read q = m.read q := by
  simp [read, push, h.symm]

theorem read_clear_self (m : Memory α) (p : Nat) : (m.clear p).read p = [] := by
  simp only [read, clear, List.getD_eq_getElem?_getD, List.getElem?_modify_eq]
  cases m[p]? <;> rfl

theorem read_clear_ne (h : q ≠ p) : (m.clear p).read q = m.read q := by
  simp [read, clear, h.symm]

theorem read_append_of_lt (h : p < m.length) (more : Memory α) : (m ++ more).read p = m.read p := by
  simp [read, List.getElem?_append_left h]

theorem read_concat_length (m : Memory α) (list : List α) : read (m ++ [list]) m.length = list := by
  simp [read]

end Memory

end LoxFrontEnd
