import LoxFrontEnd.Proofs.NodeHistory
import LoxFrontEnd.Proofs.Store

/-!
# Lists that are passed on

Whoever has the place of a list can give it to a construction, and then to another one; so can whoever was
shown a node's own list, or was handed a list of children. All that counts is the place. A construction
puts the node's own lists in new places, and an action appends to the list at one place only.
-/

namespace LoxFrontEnd

namespace Store

/-! ### Actions -/

inductive Action where
  | write (params : List Token) (body : List NodeId)
  | leaf
  | declare (name : Option Token) (given : Part → Nat)
  | anonymous (given : Part → Nat)
  | children (id : NodeId)
  | push (part : Part) (place : Nat) (item : part.Item)

def perform (s : Store) : Action → Except FunctionError Store
  | .write params body => .ok (s.write params body)
  | .leaf => (s.step .leaf).map Prod.fst
  | .declare none _ => .error .nameless
  | .declare (some name) given => (s.construct (some name) given).map Prod.fst
  | .anonymous given => (s.construct none given).map Prod.fst
  | .children id => .ok (s.children id).1
  | .push part place item => .ok (s.push part (some place) item)

/-- The store after an action; one that fails leaves it as it was. -/
def next (s : Store) (a : Action) : Store :=
  match s.perform a with
  | .ok s' => s'
  | .error _ => s

def play (s : Store) (actions : List Action) : Store := actions.foldl next s

namespace Action

def construct (name : Option Token) (given : Part → Nat) : Action :=
  match name with
  | none => .anonymous given
  | some name => .declare (some name) given

def pushed : (part : Part) → (place : Nat) → Action → List part.Item
  | .params, place, .push .params p item => if p = place then [item] else []
  | .body, place, .push .body p item => if p = place then [item] else []
  | _, _, _ => []

end Action

/-! ### One action -/

variable {s s' : Store}

/-- Lists are written behind the others. -/
def Extends (s s' : Store) : Prop := ∀ part, ∃ more, s'.memory part = s.memory part ++ more

/-- A function is added; its own lists are behind the others, and read as those that were given. -/
structure Makes (s : Store) (name : Option Token) (given : Part → Nat) (s' : Store) : Prop where
  entries_eq : s'.entries = s.entries ++ [⟨.function name s.fresh, given⟩]
  identifiers : ∀ t ∈ (s.memory .params).read (given .params), t.kind = .identifier
  memory_eq : ∀ part, s'.memory part = s.memory part ++ [(s.memory part).read (given part)]

theorem Extends.read_eq (h : s.Extends s') {part : Part} {p : Nat} (hp : p < s.fresh part) :
    (s'.memory part).read p = (s.memory part).read p := by
  obtain ⟨more, hmore⟩ := h part
  rw [hmore, Memory.read_append_of_lt hp]

theorem Extends.fresh_le (h : s.Extends s') (part : Part) : s.fresh part ≤ s'.fresh part := by
  obtain ⟨more, hmore⟩ := h part
  simp only [fresh, hmore, List.length_append, Nat.le_add_right]

theorem Makes.extends {name : Option Token} {given : Part → Nat} (h : s.Makes name given s') :
    s.Extends s' :=
  fun part => ⟨_, h.memory_eq part⟩

theorem Makes.fresh_lt {name : Option Token} {given : Part → Nat} (h : s.Makes name given s')
    (part : Part) : s.fresh part < s'.fresh part := by
  simp only [fresh, h.memory_eq, List.length_append, List.length_singleton]
  omega

theorem Makes.read_fresh {name : Option Token} {given : Part → Nat} (h : s.Makes name given s')
    (part : Part) : (s'.memory part).read (s.fresh part) = (s.memory part).read (given part) := by
  rw [h.memory_eq]
  exact Memory.read_concat_length _ _

theorem makes_of_construct {name : Option Token} {given : Part → Nat} {id : NodeId}
    (h : s.construct name given = .ok (s', id)) : s.Makes name given s' := by
  rw [construct] at h
  cases hc : Function.checkParams ((s.memory .params).read (given .params)) with
  | error e =>
    rw [hc] at h
    cases h
  | ok checked =>
    obtain ⟨hall, rfl⟩ := Function.checkParams_eq_ok_iff.1 hc
    rw [hc] at h
    cases h
    refine ⟨rfl, hall, fun part => ?_⟩
    cases part <;> rfl

theorem next_construct (s : Store) (name : Option Token) (given : Part → Nat) :
    s.next (.construct name given) = s ∨
      s.Makes name given (s.next (.construct name given)) := by
  have hperform : s.perform (.construct name given) = (s.construct name given).map Prod.fst := by
    cases name <;> rfl
  rw [next, hperform]
  cases hc : s.construct name given with
  | error e => exact .inl rfl
  | ok r => exact .inr (makes_of_construct hc)

theorem perform_anonymous_eq_error_iff {given : Part → Nat} {e : FunctionError} :
    s.perform (.anonymous given) = .error e ↔
      ∃ kind, FirstOther ((s.memory .params).read (given .params)) kind ∧ e = .notIdentifier kind :=
  map_eq_error_iff.trans (map_eq_error_iff.trans Function.checkParams_eq_error_iff)

theorem perform_declare_eq_error_iff {name : Option Token} {given : Part → Nat} {e : FunctionError} :
    s.perform (.declare name given) = .error e ↔
      name = none ∧ e = .nameless ∨ name ≠ none ∧
        ∃ kind, FirstOther ((s.memory .params).read (given .params)) kind ∧ e = .notIdentifier kind := by
  cases name with
  | none => simp [perform, eq_comm]
  | some name =>
    simp only [perform, construct, map_eq_error_iff, Function.checkParams_eq_error_iff]
    simp

/-- An action appends to one list, or it lets all lists be, writes others and adds at most one node. -/
theorem next_cases (s : Store) (a : Action) :
    (∃ part place item, a = .push part place item) ∨
      (∀ part place, a.pushed part place = []) ∧ s.Extends (s.next a) ∧
        ((s.next a).entries = s.entries ∨
          (∃ given, (s.next a).entries = s.entries ++ [⟨.leaf, given⟩]) ∨
          ∃ name given, a = .construct name given ∧ s.Makes name given (s.next a)) := by
  have hkeeps (h : s.next a = s) : s.Extends (s.next a) ∧ (s.next a).entries = s.entries := by
    rw [h]
    exact ⟨fun _ => ⟨[], (List.append_nil _).symm⟩, rfl⟩
  have hmakes (name : Option Token) (given : Part → Nat) (ha : a = .construct name given) :
      s.Extends (s.next a) ∧ ((s.next a).entries = s.entries ∨
        (∃ given, (s.next a).entries = s.entries ++ [⟨.leaf, given⟩]) ∨
        ∃ name given, a = .construct name given ∧ s.Makes name given (s.next a)) := by
    subst ha
    rcases s.next_construct name given with h | h
    · exact ⟨(hkeeps h).1, .inl (hkeeps h).2⟩
    · exact ⟨h.extends, .inr (.inr ⟨name, given, rfl, h⟩)⟩
  cases a with
  | write params body =>
    refine .inr ⟨fun part _ => by cases part <;> rfl, fun part => ?_, .inl rfl⟩
    cases part <;> exact ⟨_, rfl⟩
  | leaf =>
    refine .inr ⟨fun part _ => by cases part <;> rfl, fun part => ?_, .inr (.inl ⟨_, rfl⟩)⟩
    cases part <;> exact ⟨_, rfl⟩
  | declare name given =>
    refine .inr ⟨fun part _ => by cases part <;> rfl, ?_⟩
    cases name with
    | none => exact ⟨(hkeeps rfl).1, .inl rfl⟩
    | some name => exact hmakes (some name) given rfl
  | anonymous given => exact .inr ⟨fun part _ => by cases part <;> rfl, hmakes none given rfl⟩
  | children id =>
    refine .inr ⟨fun part _ => by cases part <;> rfl, fun part => ?_, .inl rfl⟩
    cases part with
    | params => exact ⟨[], (List.append_nil _).symm⟩
    | body => exact ⟨_, Function.update_self Part.body _ s.memory⟩
  | push part place item => exact .inl ⟨part, place, item, rfl⟩

theorem fresh_le_next (s : Store) (a : Action) (part : Part) : s.fresh part ≤ (s.next a).fresh part := by
  rcases s.next_cases a with ⟨other, place, item, rfl⟩ | ⟨-, hextends, -⟩
  · exact Nat.le_of_eq (s.fresh_push other (some place) item part).symm
  · exact hextends.fresh_le part

theorem Action.pushed_push (part : Part) (place p : Nat) (item : part.Item) :
    (push part place item).pushed part p = if place = p then [item] else [] := by
  cases part <;> rfl

theorem Action.pushed_push_of_ne {part other : Part} (h : other ≠ part) (place p : Nat)
    (item : part.Item) : (push part place item).pushed other p = [] := by
  cases part <;> cases other <;> first | rfl | exact absurd rfl h

theorem read_next (a : Action) {part : Part} {p : Nat} (hp : p < s.fresh part) :
    ((s.next a).memory part).read p = (s.memory part).read p ++ a.pushed part p := by
  rcases s.next_cases a with ⟨other, place, item, rfl⟩ | ⟨hpushed, hextends, -⟩
  · by_cases hpart : part = other
    · subst hpart
      rw [Action.pushed_push]
      by_cases hplace : place = p
      · subst hplace
        rw [if_pos rfl, ← Memory.read_push_self hp]
        exact congrArg (Memory.read · place) (Function.update_self part _ s.memory)
      · rw [if_neg hplace, List.append_nil]
        exact s.read_push_of_ne item fun _ => Ne.symm hplace
    · rw [Action.pushed_push_of_ne hpart, List.append_nil]
      exact s.read_push_of_ne item fun h => absurd h hpart
  · rw [hextends.read_eq hp, hpushed, List.append_nil]

theorem entries_prefix_next (s : Store) (a : Action) : s.entries <+: (s.next a).entries := by
  rcases s.next_cases a with ⟨part, place, item, rfl⟩ | ⟨-, -, h | ⟨given, h⟩ | ⟨name, given, -, h⟩⟩
  · exact (s.entries_push part (some place) item).symm ▸ List.prefix_rfl
  · exact h ▸ List.prefix_rfl
  · exact h ▸ List.prefix_append _ _
  · exact h.entries_eq ▸ List.prefix_append _ _

/-! ### Runs of actions -/

theorem play_cons (s : Store) (a : Action) (actions : List Action) :
    s.play (a :: actions) = (s.next a).play actions := rfl

theorem play_append (s : Store) (actions actions' : List Action) :
    s.play (actions ++ actions') = (s.play actions).play actions' := List.foldl_append

theorem read_play (actions : List Action) {part : Part} {p : Nat} (hp : p < s.fresh part) :
    ((s.play actions).memory part).read p =
      (s.memory part).read p ++ actions.flatMap (Action.pushed part p) := by
  induction actions generalizing s with
  | nil => exact (List.append_nil _).symm
  | cons a actions ih =>
    have hlt : p < (s.next a).fresh part := Nat.lt_of_lt_of_le hp (s.fresh_le_next a part)
    rw [play_cons, ih hlt, read_next a hp, List.flatMap_cons, List.append_assoc]

theorem entries_prefix_play (s : Store) (actions : List Action) :
    s.entries <+: (s.play actions).entries := by
  induction actions generalizing s with
  | nil => exact List.prefix_rfl
  | cons a actions ih => exact (s.entries_prefix_next a).trans (ih _)

/-- A function that a run has is there from the beginning, or one construction of the run has made it. -/
theorem exists_construct_of_play {actions : List Action} {id : NodeId} {name : Option Token}
    {own given : Part → Nat} (hid : s.entries.length ≤ id)
    (h : (s.play actions).entries[id]? = some ⟨.function name own, given⟩) :
    ∃ before later, actions = before ++ .construct name given :: later ∧
      (s.play before).entries.length = id ∧ own = (s.play before).fresh ∧
      (s.play before).Makes name given ((s.play before).next (.construct name given)) := by
  induction actions generalizing s with
  | nil =>
    rw [play, List.foldl_nil, List.getElem?_eq_none hid] at h
    cases h
  | cons a actions ih =>
    -- the first action makes the function, or the function is still to come after it
    rcases Nat.lt_or_ge id (s.next a).entries.length with hlt | hge
    · obtain ⟨more, hmore⟩ := (s.next a).entries_prefix_play actions
      rw [play_cons, ← hmore, List.getElem?_append_left hlt] at h
      have hadded {e : StoreEntry} (he : (s.next a).entries = s.entries ++ [e]) :
          id = s.entries.length ∧ e = ⟨.function name own, given⟩ := by
        rw [he, List.length_append, List.length_singleton] at hlt
        have hlast : id = s.entries.length := Nat.le_antisymm (Nat.lt_succ_iff.1 hlt) hid
        rw [he, hlast, List.getElem?_concat_length] at h
        exact ⟨hlast, Option.some.inj h⟩
      have hsame (he : (s.next a).entries = s.entries) : False :=
        Nat.not_lt.2 hid (he ▸ hlt)
      rcases s.next_cases a with ⟨part, place, item, rfl⟩ |
        ⟨-, -, he | ⟨given', he⟩ | ⟨name', given', rfl, hmakes⟩⟩
      · exact (hsame (s.entries_push part (some place) item)).elim
      · exact (hsame he).elim
      · cases (hadded he).2
      · obtain ⟨hlast, he⟩ := hadded hmakes.entries_eq
        cases he
        exact ⟨[], actions, rfl, hlast.symm, rfl, hmakes⟩
    · obtain ⟨before, later, rfl, hlength, hown, hmakes⟩ := ih hge h
      exact ⟨a :: before, later, rfl, hlength, hown, hmakes⟩

/-! ### Places of their own -/

def own? (s : Store) (part : Part) (id : NodeId) : Option Nat :=
  (s.entries[id]?).bind fun e => e.own? part

def Owned (s : Store) : Prop :=
  ∀ part, Apart (fun e => (e.own? part).toList) s.entries (s.fresh part)

theorem Owned.next (h : s.Owned) (a : Action) : (s.next a).Owned := by
  intro part
  have hle := s.fresh_le_next a part
  rcases s.next_cases a with ⟨other, place, item, rfl⟩ |
    ⟨-, -, he | ⟨given, he⟩ | ⟨name, given, -, hmakes⟩⟩
  · have he := s.entries_push other (some place) item
    exact (he ▸ h part).mono hle
  · rw [he]
    exact (h part).mono hle
  · rw [he]
    exact (h part).concat hle (fun _ hp => absurd hp List.not_mem_nil) List.nodup_nil
  · rw [hmakes.entries_eq]
    refine (h part).concat hle (fun p hp => ?_) (List.nodup_singleton _)
    rw [List.mem_singleton.1 hp]
    exact ⟨Nat.le_refl _, hmakes.fresh_lt part⟩

theorem Owned.play (h : s.Owned) (actions : List Action) : (s.play actions).Owned := by
  induction actions generalizing s with
  | nil => exact h
  | cons a actions ih => exact ih (h.next a)

theorem owned_empty : Owned {} := fun _ =>
  ⟨fun _ he => absurd he List.not_mem_nil, List.nodup_nil⟩

theorem Owned.eq_of_own? (h : s.Owned) {part : Part} {i j : NodeId} {p : Nat}
    (hi : s.own? part i = some p) (hj : s.own? part j = some p) : i = j := by
  obtain ⟨e, he, hp⟩ := Option.bind_eq_some_iff.1 hi
  obtain ⟨other, ho, hp'⟩ := Option.bind_eq_some_iff.1 hj
  by_contra hne
  exact (h part).notMem he ho (fun heq => hne heq.symm) (Option.mem_toList.2 hp)
    (Option.mem_toList.2 hp')

/-- A run has made the function: it has the lists that it was given, as they were then, and behind them
what was appended since at the places of its own lists. -/
def MadeBy (actions : List Action) (id : NodeId) (f : Function) : Prop :=
  ∃ before given later, actions = before ++ .construct f.name given :: later ∧
    let s := ({} : Store).play before
    s.entries.length = id ∧
    (∀ part, (({} : Store).play actions).own? part id = some (s.fresh part)) ∧
    (∀ t ∈ (s.memory .params).read (given .params), t.kind = .identifier) ∧
    f.params = (s.memory .params).read (given .params) ++
      later.flatMap (Action.pushed .params (s.fresh .params)) ∧
    f.body = (s.memory .body).read (given .body) ++
      later.flatMap (Action.pushed .body (s.fresh .body))

theorem madeBy_of_play {actions : List Action} {id : NodeId} {f : Function}
    (h : (({} : Store).play actions).workspace.node? id = some (.function f)) :
    MadeBy actions id f := by
  rw [Workspace.node?, Workspace.slot?, workspace, List.getElem?_map, Option.map_map] at h
  obtain ⟨⟨cell, given⟩, he, hnode⟩ := Option.map_eq_some_iff.1 h
  cases cell with
  | leaf => cases hnode
  | function name own =>
    obtain ⟨before, later, rfl, hlength, rfl, hmakes⟩ := exists_construct_of_play (Nat.zero_le id) he
    obtain rfl := Node.function.inj hnode
    have hown (part : Part) :
        ((({} : Store).play (before ++ .construct name given :: later)).memory part).read
            ((({} : Store).play before).fresh part) =
          (((({} : Store).play before).memory part).read (given part)) ++
            later.flatMap (Action.pushed part ((({} : Store).play before).fresh part)) := by
      rw [play_append, play_cons, read_play later (hmakes.fresh_lt part), hmakes.read_fresh]
    refine ⟨before, given, later, rfl, hlength, fun part => ?_, hmakes.identifiers, hown .params,
      hown .body⟩
    rw [own?, he]
    rfl

end Store

end LoxFrontEnd
