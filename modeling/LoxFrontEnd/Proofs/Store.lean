import LoxFrontEnd.Function.Workspace
import LoxFrontEnd.Proofs.Memory
import Mathlib.Data.List.Nodup
import Mathlib.Logic.Function.Basic

/-!
# Lists at places

Nodes and their makers hold lists by the places of the lists in memory. A construction reads the lists
that it is given and puts copies of them in new places. What a node shows as its parameters or its body
is the place of its own list; what it shows as its children is a new copy. No place is ever in use twice.
-/

namespace LoxFrontEnd

/-! ### Entries -/

inductive Part where
  | params
  | body
deriving DecidableEq

abbrev Part.Item : Part → Type
  | .params => Token
  | .body => NodeId

/-- A node in memory: a function has the places of its own lists. -/
inductive Cell where
  | leaf
  | function (name : Option Token) (own : Part → Nat)

/-- A node, and the places of the lists that its maker keeps. -/
structure StoreEntry where
  cell : Cell
  given : Part → Nat

namespace StoreEntry

def own? (e : StoreEntry) (part : Part) : Option Nat :=
  match e.cell with
  | .leaf => none
  | .function _ own => some (own part)

def places (part : Part) (e : StoreEntry) : List Nat := (e.own? part).toList ++ [e.given part]

end StoreEntry

/-! ### Stores -/

structure Store where
  memory : (part : Part) → Memory part.Item := fun _ => []
  entries : List StoreEntry := []

namespace Store

def push (s : Store) (part : Part) (place : Option Nat) (item : part.Item) : Store :=
  match place with
  | none => s
  | some p => { s with memory := Function.update s.memory part ((s.memory part).push p item) }

def fresh (s : Store) (part : Part) : Nat := (s.memory part).length

def write (s : Store) (params : List Token) (body : List NodeId) : Store where
  memory
    | .params => s.memory .params ++ [params]
    | .body => s.memory .body ++ [body]
  entries := s.entries

/-- The lists at two places are read, and the new node gets copies of them. -/
def construct (s : Store) (name : Option Token) (given : Part → Nat) :
    Except FunctionError (Store × NodeId) :=
  (Function.checkParams ((s.memory .params).read (given .params))).map fun checked =>
    ({ s.write checked ((s.memory .body).read (given .body)) with
        entries := s.entries ++ [⟨.function name s.fresh, given⟩] },
      s.entries.length)

def children (s : Store) (id : NodeId) : Store × Nat :=
  let own := ((s.entries[id]?).bind fun e => e.own? .body).map (s.memory .body).read
  ({ s with memory := Function.update s.memory .body (s.memory .body ++ [own.getD []]) },
    s.fresh .body)

/-- The maker of a node writes the lists that the node is to be made from, and keeps them. -/
def step (s : Store) : Workspace.Step → Except FunctionError (Store × NodeId)
  | .leaf =>
    .ok ({ s.write [] [] with entries := s.entries ++ [⟨.leaf, s.fresh⟩] }, s.entries.length)
  | .declare name params body =>
    match name with
    | none => .error .nameless
    | some name => (s.write params body).construct (some name) s.fresh
  | .anonymous params body => (s.write params body).construct none s.fresh
  | .inspect id => .ok (s, id)
  | .pushParam id param =>
    .ok (s.push .params ((s.entries[id]?).bind fun e => e.own? .params) param, id)
  | .pushBody id child => .ok (s.push .body ((s.entries[id]?).bind fun e => e.own? .body) child, id)
  | .pushChild id child => .ok ((s.children id).1.push .body (some (s.children id).2) child, id)
  | .pushGivenParam id param =>
    .ok (s.push .params ((s.entries[id]?).map fun e => e.given .params) param, id)
  | .pushGivenBody id child =>
    .ok (s.push .body ((s.entries[id]?).map fun e => e.given .body) child, id)

def after (s : Store) (st : Workspace.Step) : Store :=
  match s.step st with
  | .ok (next, _) => next
  | .error _ => s

def run (s : Store) (steps : List Workspace.Step) : Store := steps.foldl after s

/-- A node and its maker's lists, all read at their places. -/
def slot (s : Store) (e : StoreEntry) : Slot where
  node :=
    match e.cell with
    | .leaf => .leaf
    | .function name own =>
      .function ⟨name, (s.memory .params).read (own .params), (s.memory .body).read (own .body)⟩
  givenParams := (s.memory .params).read (e.given .params)
  givenBody := (s.memory .body).read (e.given .body)

def workspace (s : Store) : Workspace := ⟨s.entries.map s.slot⟩

end Store

/-! ### Places that stay apart -/

/-- All places are in use, and none is in use twice. -/
structure Apart (places : StoreEntry → List Nat) (entries : List StoreEntry) (size : Nat) : Prop where
  lt : ∀ e ∈ entries, ∀ p ∈ places e, p < size
  nodup : (entries.flatMap places).Nodup

namespace Apart

variable {places : StoreEntry → List Nat} {entries : List StoreEntry} {size size' : Nat}

theorem mono (h : Apart places entries size) (hle : size ≤ size') : Apart places entries size' :=
  ⟨fun e he p hp => Nat.lt_of_lt_of_le (h.lt e he p hp) hle, h.nodup⟩

theorem concat (h : Apart places entries size) {e : StoreEntry} (hle : size ≤ size')
    (hfresh : ∀ p ∈ places e, size ≤ p ∧ p < size') (hnodup : (places e).Nodup) :
    Apart places (entries ++ [e]) size' := by
  constructor
  · intro other ho p hp
    rcases List.mem_append.1 ho with ho | ho
    · exact Nat.lt_of_lt_of_le (h.lt other ho p hp) hle
    · rw [List.mem_singleton.1 ho] at hp
      exact (hfresh p hp).2
  · rw [List.flatMap_append, List.flatMap_singleton, List.nodup_append]
    refine ⟨h.nodup, hnodup, fun p hp q hq => ?_⟩
    obtain ⟨other, ho, hp⟩ := List.mem_flatMap.1 hp
    exact Nat.ne_of_lt (Nat.lt_of_lt_of_le (h.lt other ho p hp) (hfresh q hq).1)

theorem nodup_places (h : Apart places entries size) {e : StoreEntry} (he : e ∈ entries) :
    (places e).Nodup :=
  (List.nodup_flatMap.1 h.nodup).1 e he

theorem notMem (h : Apart places entries size) {i j : Nat} {e other : StoreEntry}
    (hi : entries[i]? = some e) (hj : entries[j]? = some other) (hne : j ≠ i) {p : Nat}
    (hp : p ∈ places e) : p ∉ places other := by
  intro hp'
  obtain ⟨hilt, rfl⟩ := List.getElem?_eq_some_iff.1 hi
  obtain ⟨hjlt, rfl⟩ := List.getElem?_eq_some_iff.1 hj
  have hdisjoint := List.pairwise_iff_getElem.1 (List.nodup_flatMap.1 h.nodup).2
  rcases Nat.lt_or_gt_of_ne hne with hlt | hgt
  · exact hdisjoint j i hjlt hilt hlt hp' hp
  · exact hdisjoint i j hilt hjlt hgt hp hp'

end Apart

namespace Store

variable {s s' : Store}

/-! ### Growth -/

def Separate (s : Store) : Prop :=
  ∀ part, Apart (StoreEntry.places part) s.entries (s.fresh part)

/-- All places are between two bounds, and none comes twice. -/
structure Fresh (places : List Nat) (low high : Nat) : Prop where
  bounds : ∀ p ∈ places, low ≤ p ∧ p < high
  nodup : places.Nodup

/-- Memory only grows, and at most one node is added, whose lists are all in new places. -/
structure Grows (s s' : Store) : Prop where
  fresh_le : ∀ part, s.fresh part ≤ s'.fresh part
  entries : s'.entries = s.entries ∨ ∃ e, s'.entries = s.entries ++ [e] ∧
    ∀ part, Fresh (e.places part) (s.fresh part) (s'.fresh part)

theorem Separate.grows (h : s.Separate) (hg : s.Grows s') : s'.Separate := by
  intro part
  rcases hg.entries with he | ⟨e, he, hfresh⟩
  · rw [he]
    exact (h part).mono (hg.fresh_le part)
  · rw [he]
    exact (h part).concat (hg.fresh_le part) (hfresh part).bounds (hfresh part).nodup

theorem fresh_push (s : Store) (part : Part) (place : Option Nat) (item : part.Item) (other : Part) :
    (s.push part place item).fresh other = s.fresh other := by
  cases place with
  | none => rfl
  | some p =>
    by_cases h : other = part
    · subst h
      simp only [push, fresh, Function.update_self, Memory.length_push]
    · simp only [push, fresh, Function.update_of_ne h]

theorem entries_push (s : Store) (part : Part) (place : Option Nat) (item : part.Item) :
    (s.push part place item).entries = s.entries := by
  cases place <;> rfl

theorem grows_push (s : Store) (part : Part) (place : Option Nat) (item : part.Item) :
    s.Grows (s.push part place item) :=
  ⟨fun other => Nat.le_of_eq (s.fresh_push part place item other).symm,
    .inl (s.entries_push part place item)⟩

theorem read_push_of_ne (s : Store) {part other : Part} {p q : Nat} (item : part.Item)
    (h : other = part → q ≠ p) :
    ((s.push part (some p) item).memory other).read q = (s.memory other).read q := by
  by_cases hpart : other = part
  · subst hpart
    simp only [push, Function.update_self, Memory.read_push_ne (h rfl)]
  · simp only [push, Function.update_of_ne hpart]

theorem fresh_write (s : Store) (params : List Token) (body : List NodeId) (part : Part) :
    (s.write params body).fresh part = s.fresh part + 1 := by
  cases part <;> exact List.length_append

theorem fresh_children_le (s : Store) (id : NodeId) (part : Part) :
    s.fresh part ≤ (s.children id).1.fresh part := by
  cases part with
  | params => exact Nat.le_refl _
  | body => simp [children, fresh]

def built (s : Store) (name : Option Token) (params checked : List Token) (body : List NodeId) :
    Store :=
  { (s.write params body).write checked body with
    entries := s.entries ++ [⟨.function name fun part => s.fresh part + 1, s.fresh⟩] }

theorem construct_write (s : Store) (name : Option Token) (params : List Token)
    (body : List NodeId) : (s.write params body).construct name s.fresh =
      (Function.checkParams params).map fun checked =>
        (s.built name params checked body, s.entries.length) := by
  have hparams : ((s.write params body).memory .params).read (s.fresh .params) = params :=
    Memory.read_concat_length _ _
  have hbody : ((s.write params body).memory .body).read (s.fresh .body) = body :=
    Memory.read_concat_length _ _
  have hfresh : (s.write params body).fresh = fun part => s.fresh part + 1 :=
    funext fun part => s.fresh_write params body part
  rw [construct, hparams, hbody, hfresh]
  rfl

theorem grows_built (s : Store) (name : Option Token) (params checked : List Token)
    (body : List NodeId) : s.Grows (s.built name params checked body) := by
  have hfresh (part : Part) :
      (s.built name params checked body).fresh part = s.fresh part + 1 + 1 := by
    rw [← s.fresh_write params body, ← fresh_write _ checked body]
    rfl
  refine ⟨fun part => ?_, .inr ⟨_, rfl, fun part => ⟨fun p hp => ?_, ?_⟩⟩⟩
  · rw [hfresh]
    omega
  · simp only [StoreEntry.places, StoreEntry.own?, Option.toList_some, List.singleton_append,
      List.mem_cons, List.not_mem_nil, or_false] at hp
    rw [hfresh]
    omega
  · simp [StoreEntry.places, StoreEntry.own?]

theorem grows_leaf (s : Store) :
    s.Grows { s.write [] [] with entries := s.entries ++ [⟨.leaf, s.fresh⟩] } := by
  have hfresh := s.fresh_write [] []
  refine ⟨fun part => Nat.le_of_lt (Nat.lt_of_lt_of_eq (Nat.lt_succ_self _) (hfresh part).symm),
    .inr ⟨_, rfl, fun part => ⟨fun p hp => ?_, List.nodup_singleton _⟩⟩⟩
  rw [List.mem_singleton.1 hp]
  exact ⟨Nat.le_refl _, Nat.lt_of_lt_of_eq (Nat.lt_succ_self _) (hfresh part).symm⟩

theorem grows_step {st : Workspace.Step} {r : Store × NodeId} (h : s.step st = .ok r) :
    s.Grows r.1 := by
  have hconstruct {name : Option Token} {params : List Token} {body : List NodeId}
      (h : (s.write params body).construct name s.fresh = .ok r) : s.Grows r.1 := by
    rw [construct_write] at h
    cases hc : Function.checkParams params with
    | error e =>
      rw [hc] at h
      cases h
    | ok checked =>
      rw [hc] at h
      rw [← Except.ok.inj h]
      exact s.grows_built _ _ _ _
  cases st with
  | leaf =>
    rw [← Except.ok.inj h]
    exact s.grows_leaf
  | declare name params body =>
    cases name with
    | none => cases h
    | some name => exact hconstruct h
  | anonymous params body => exact hconstruct h
  | inspect id =>
    rw [← Except.ok.inj h]
    exact ⟨fun part => Nat.le_refl _, .inl rfl⟩
  | pushChild id child =>
    rw [← Except.ok.inj h]
    refine ⟨fun part => ?_, .inl rfl⟩
    rw [fresh_push]
    exact s.fresh_children_le id part
  | pushParam id param =>
    rw [← Except.ok.inj h]
    exact s.grows_push _ _ _
  | pushBody id child =>
    rw [← Except.ok.inj h]
    exact s.grows_push _ _ _
  | pushGivenParam id param =>
    rw [← Except.ok.inj h]
    exact s.grows_push _ _ _
  | pushGivenBody id child =>
    rw [← Except.ok.inj h]
    exact s.grows_push _ _ _

theorem grows_after (s : Store) (st : Workspace.Step) : s.Grows (s.after st) := by
  rw [after]
  split
  · next hstep => exact grows_step hstep
  · exact ⟨fun _ => Nat.le_refl _, .inl rfl⟩

theorem separate_empty : Separate {} := fun _ =>
  ⟨fun _ he => absurd he List.not_mem_nil, List.nodup_nil⟩

end Store

end LoxFrontEnd
