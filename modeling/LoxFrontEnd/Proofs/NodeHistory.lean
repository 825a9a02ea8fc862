import LoxFrontEnd.Function.Workspace

/-!
# The history of a node

A node is made by one step and has, from then on, what it was made from and what was appended to its own
lists. Nothing else changes it: a construction that fails makes no node, and the lists that its maker
keeps, or that it hands out, are not its own.
-/

namespace LoxFrontEnd

/-! ### Constructions that fail -/

theorem map_eq_error_iff {ε α β : Type} {x : Except ε α} {f : α → β} {e : ε} :
    x.map f = .error e ↔ x = .error e := by
  cases x <;> simp [Except.map]

/-- Of the tokens that are no identifiers, the first one is of this kind. -/
def FirstOther (params : List Token) (kind : Kind) : Prop :=
  ∃ before t after, params = before ++ t :: after ∧ (∀ u ∈ before, u.kind = .identifier) ∧
    t.kind ≠ .identifier ∧ t.kind = kind

namespace Function

theorem checkParams_eq_error_iff {params : List Token} {e : FunctionError} :
    checkParams params = .error e ↔ ∃ kind, FirstOther params kind ∧ e = .notIdentifier kind := by
  have hfind (t : Token) : params.find? (fun t => t.kind != .identifier) = some t ↔
      t.kind ≠ .identifier ∧
        ∃ before after, params = before ++ t :: after ∧ ∀ u ∈ before, u.kind = .identifier := by
    simp [List.find?_eq_some_iff_append]
  unfold checkParams
  split
  · next t h =>
    obtain ⟨hkind, before, after, hparams, hbefore⟩ := (hfind t).1 h
    constructor
    · intro he
      exact ⟨t.kind, ⟨before, t, after, hparams, hbefore, hkind, rfl⟩, (Except.error.inj he).symm⟩
    · rintro ⟨_, ⟨before', t', after', hparams', hbefore', hkind', rfl⟩, rfl⟩
      have ht' := (hfind t').2 ⟨hkind', before', after', hparams', hbefore'⟩
      rw [Option.some.inj (h.symm.trans ht')]
  · next h =>
    constructor
    · intro he
      cases he
    · rintro ⟨_, ⟨before, t, after, hparams, hbefore, hkind, -⟩, -⟩
      rw [(hfind t).2 ⟨hkind, before, after, hparams, hbefore⟩] at h
      cases h

theorem map_checkParams_eq_ok_iff {params : List Token} {make : List Token → Function}
    {f : Function} : (checkParams params).map make = .ok f ↔
      (∀ t ∈ params, t.kind = .identifier) ∧ f = make params := by
  constructor
  · intro h
    cases hc : checkParams params with
    | error e =>
      rw [hc] at h
      cases h
    | ok qs =>
      obtain ⟨hall, rfl⟩ := checkParams_eq_ok_iff.1 hc
      rw [hc] at h
      exact ⟨hall, (Except.ok.inj h).symm⟩
  · rintro ⟨hall, rfl⟩
    rw [checkParams_eq_ok_iff.2 ⟨hall, rfl⟩]
    rfl

theorem declare_eq_error_iff {name : Option Token} {params : List Token} {body : List NodeId}
    {e : FunctionError} : declare name params body = .error e ↔
      name = none ∧ e = .nameless ∨
        name ≠ none ∧ ∃ kind, FirstOther params kind ∧ e = .notIdentifier kind := by
  cases name with
  | none => simp [declare, eq_comm]
  | some name => simp [declare, map_eq_error_iff, checkParams_eq_error_iff]

end Function

/-! ### Steps -/

def Node.extend (n : Node) (params : List Token) (body : List NodeId) : Node :=
  match n with
  | .leaf => .leaf
  | .function f => .function { f with params := f.params ++ params, body := f.body ++ body }

theorem Node.extend_nil (n : Node) : n.extend [] [] = n := by
  cases n with
  | leaf => rfl
  | function f => simp only [extend, List.append_nil]

theorem Node.extend_extend (n : Node) (params params' : List Token) (body body' : List NodeId) :
    (n.extend params body).extend params' body' = n.extend (params ++ params') (body ++ body') := by
  cases n with
  | leaf => rfl
  | function f => simp only [extend, List.append_assoc]

namespace Workspace

namespace Step

def makes? : Step → Option Node
  | leaf => some .leaf
  | declare name params body => (Function.declare name params body).toOption.map .function
  | anonymous params body => (Function.anonymous params body).toOption.map .function
  | _ => none

def params (id : NodeId) : Step → List Token
  | pushParam other param => if other = id then [param] else []
  | _ => []

def body (id : NodeId) : Step → List NodeId
  | pushBody other child => if other = id then [child] else []
  | _ => []

end Step

/-- The workspace after a step; a construction that fails leaves it as it was. -/
def after (w : Workspace) (s : Step) : Workspace :=
  match w.step s with
  | .ok (next, _) => next
  | .error _ => w

def run (w : Workspace) (steps : List Step) : Workspace := steps.foldl after w

/-! ### One step -/

theorem node?_modify (w : Workspace) (id : NodeId) (f : Slot → Slot) (other : NodeId) :
    (w.modify id f).node? other =
      (w.slot? other).map fun s => if id = other then (f s).node else s.node := by
  simp only [node?, slot?, modify, List.getElem?_modify, Option.map_eq_map, Option.map_map]
  congr 1
  funext s
  simp only [Function.comp_apply, apply_ite Slot.node]

theorem node?_modify_of_node_eq (w : Workspace) (id : NodeId) {f : Slot → Slot}
    (h : ∀ s, (f s).node = s.node) (other : NodeId) : (w.modify id f).node? other = w.node? other := by
  simp only [node?_modify, h, ite_self]
  rfl

theorem node?_after_pushGivenParam (w : Workspace) (id : NodeId) (param : Token) (other : NodeId) :
    (w.after (.pushGivenParam id param)).node? other = w.node? other :=
  node?_modify_of_node_eq w id
    (f := fun s => { s with givenParams := s.givenParams ++ [param] }) (fun _ => rfl) other

theorem node?_after_pushGivenBody (w : Workspace) (id : NodeId) (child other : NodeId) :
    (w.after (.pushGivenBody id child)).node? other = w.node? other :=
  node?_modify_of_node_eq w id
    (f := fun s => { s with givenBody := s.givenBody ++ [child] }) (fun _ => rfl) other

theorem node?_modifyFunction (w : Workspace) (id : NodeId) {f : Function → Function}
    {params : List Token} {body : List NodeId}
    (h : ∀ g, .function (f g) = (Node.function g).extend params body) (other : NodeId) :
    (w.modifyFunction id f).node? other =
      (w.node? other).map fun n =>
        n.extend (if id = other then params else []) (if id = other then body else []) := by
  rw [modifyFunction, node?_modify, node?, Option.map_map]
  congr 1
  funext s
  rw [Function.comp_apply]
  split
  · cases hn : s.node with
    | leaf => simp only [hn, Node.extend]
    | function g => simp only [h]
  · rw [Node.extend_nil]

theorem length_modify (w : Workspace) (id : NodeId) (f : Slot → Slot) :
    (w.modify id f).slots.length = w.slots.length := by
  simp only [modify, List.length_modify]

/-- A step leaves the nodes as they are, up to what it appends to their own lists. -/
structure Keeps (w : Workspace) (s : Step) : Prop where
  makes : s.makes? = none
  length_eq : (w.after s).slots.length = w.slots.length
  node?_eq : ∀ id, (w.after s).node? id =
    (w.node? id).map fun n => n.extend (s.params id) (s.body id)

theorem keeps_of_after_eq {w : Workspace} {s : Step} (hmakes : s.makes? = none) (hafter : w.after s = w)
    (hpushes : ∀ id, s.params id = [] ∧ s.body id = []) : w.Keeps s := by
  refine ⟨hmakes, by rw [hafter], fun id => ?_⟩
  simp only [hafter, hpushes, Node.extend_nil, Option.map_id']

theorem construction_cases {w : Workspace} {s : Step} {made : Except FunctionError Function}
    {slot : Function → Slot} (hnode : ∀ f, (slot f).node = .function f)
    (hmakes : s.makes? = made.toOption.map .function)
    (hstep : w.step s = made.map fun f => (w.append (slot f), w.slots.length))
    (hpushes : ∀ id, s.params id = [] ∧ s.body id = []) :
    (∃ slot : Slot, s.makes? = some slot.node ∧ w.after s = w.append slot) ∨ w.Keeps s := by
  cases made with
  | error e =>
    refine .inr (keeps_of_after_eq hmakes ?_ hpushes)
    rw [after, hstep]
    rfl
  | ok f =>
    refine .inl ⟨slot f, hmakes.trans (congrArg some (hnode f).symm), ?_⟩
    rw [after, hstep]
    rfl

/-- A step is a construction that makes the next node, or it keeps the nodes. -/
theorem after_cases (w : Workspace) (s : Step) :
    (∃ slot : Slot, s.makes? = some slot.node ∧ w.after s = w.append slot) ∨ w.Keeps s := by
  cases s with
  | leaf => exact .inl ⟨_, rfl, rfl⟩
  | declare name params body =>
    exact construction_cases (fun _ => rfl) rfl rfl fun _ => ⟨rfl, rfl⟩
  | anonymous params body => exact construction_cases (fun _ => rfl) rfl rfl fun _ => ⟨rfl, rfl⟩
  | inspect id => exact .inr (keeps_of_after_eq rfl rfl fun _ => ⟨rfl, rfl⟩)
  | pushChild id child => exact .inr (keeps_of_after_eq rfl rfl fun _ => ⟨rfl, rfl⟩)
  | pushParam id param =>
    have hextend (g : Function) : Node.function { g with params := g.params ++ [param] } =
        (Node.function g).extend [param] [] := by
      simp only [Node.extend, List.append_nil]
    refine .inr ⟨rfl, length_modify w id _, fun other =>
      (node?_modifyFunction w id hextend other).trans ?_⟩
    simp only [Step.params, Step.body, ite_self]
  | pushBody id child =>
    have hextend (g : Function) : Node.function { g with body := g.body ++ [child] } =
        (Node.function g).extend [] [child] := by
      simp only [Node.extend, List.append_nil]
    refine .inr ⟨rfl, length_modify w id _, fun other =>
      (node?_modifyFunction w id hextend other).trans ?_⟩
    simp only [Step.params, Step.body, ite_self]
  | pushGivenParam id param =>
    refine .inr ⟨rfl, length_modify w id _, fun other =>
      (w.node?_after_pushGivenParam id param other).trans ?_⟩
    simp only [Step.params, Step.body, Node.extend_nil, Option.map_id']
  | pushGivenBody id child =>
    refine .inr ⟨rfl, length_modify w id _, fun other =>
      (w.node?_after_pushGivenBody id child other).trans ?_⟩
    simp only [Step.params, Step.body, Node.extend_nil, Option.map_id']

theorem Step.pushes_of_makes {s : Step} {n : Node} (h : s.makes? = some n) (id : NodeId) :
    s.params id = [] ∧ s.body id = [] := by
  cases s with
  | pushParam _ _ => cases h
  | pushBody _ _ => cases h
  | _ => exact ⟨rfl, rfl⟩

theorem Step.construction_of_makes {s : Step} {f : Function} (h : s.makes? = some (.function f)) :
    (∀ t ∈ f.params, t.kind = .identifier) ∧
      (f.isAnonymous = true ∧ s = .anonymous f.params f.body ∨
        f.isAnonymous = false ∧ s = .declare f.name f.params f.body) := by
  have hmade {made : Except FunctionError Function}
      (hm : made.toOption.map Node.function = some (.function f)) : made = .ok f := by
    cases made with
    | error e => cases hm
    | ok g =>
      cases hm
      rfl
  cases s with
  | declare name params body =>
    have hdeclare := hmade h
    cases name with
    | none => cases hdeclare
    | some name =>
      obtain ⟨hall, rfl⟩ := Function.map_checkParams_eq_ok_iff.1 hdeclare
      exact ⟨hall, .inr ⟨rfl, rfl⟩⟩
  | anonymous params body =>
    obtain ⟨hall, rfl⟩ := Function.map_checkParams_eq_ok_iff.1 (hmade h)
    exact ⟨hall, .inl ⟨rfl, rfl⟩⟩
  | leaf => cases h
  | _ => cases h

theorem node?_after (w : Workspace) (s : Step) {id : NodeId} {n : Node} (h : w.node? id = some n) :
    (w.after s).node? id = some (n.extend (s.params id) (s.body id)) := by
  rcases w.after_cases s with ⟨slot, hmakes, hafter⟩ | hkeeps
  · obtain ⟨hparams, hbody⟩ := Step.pushes_of_makes hmakes id
    have hlt : id < w.slots.length := by
      obtain ⟨_, hslot, -⟩ := Option.map_eq_some_iff.1 h
      exact (List.getElem?_eq_some_iff.1 hslot).1
    rw [hparams, hbody, Node.extend_nil, hafter, node?, slot?_append_of_lt w slot hlt]
    exact h
  · rw [hkeeps.node?_eq, h, Option.map_some]

theorem node?_after_length (w : Workspace) (s : Step) :
    (w.after s).node? w.slots.length = s.makes? := by
  rcases w.after_cases s with ⟨slot, hmakes, hafter⟩ | hkeeps
  · rw [hmakes, hafter, node?, slot?, append, List.getElem?_concat_length, Option.map_some]
  · rw [hkeeps.makes, hkeeps.node?_eq, node?, slot?, List.getElem?_eq_none (Nat.le_refl _)]
    rfl

/-! ### Runs of steps -/

theorem run_cons (w : Workspace) (s : Step) (steps : List Step) :
    w.run (s :: steps) = (w.after s).run steps := rfl

theorem node?_run (w : Workspace) {steps : List Step} {id : NodeId} {n : Node}
    (h : w.node? id = some n) : (w.run steps).node? id =
      some (n.extend (steps.flatMap (Step.params id)) (steps.flatMap (Step.body id))) := by
  induction steps generalizing w n with
  | nil =>
    rw [List.flatMap_nil, List.flatMap_nil, Node.extend_nil]
    exact h
  | cons s steps ih =>
    rw [run_cons, ih _ (node?_after w s h), Node.extend_extend, List.flatMap_cons, List.flatMap_cons]

/-- A node that a run has is there from the beginning, or one step of the run has made it; the rest is
what was appended to its lists later on. -/
theorem exists_made_of_node?_run (w : Workspace) {steps : List Step} {id : NodeId} {n : Node}
    (hid : w.slots.length ≤ id) (h : (w.run steps).node? id = some n) :
    ∃ before s later made, steps = before ++ s :: later ∧ (w.run before).slots.length = id ∧
      s.makes? = some made ∧
      n = made.extend (later.flatMap (Step.params id)) (later.flatMap (Step.body id)) := by
  induction steps generalizing w with
  | nil =>
    have hnone : w.node? id = none := by
      rw [node?, slot?, List.getElem?_eq_none hid, Option.map_none]
    exact absurd (hnone.symm.trans h) (by simp)
  | cons s steps ih =>
    -- the first step makes the node, or the node is still to come after it
    rcases Nat.lt_or_ge id (w.after s).slots.length with hlt | hge
    · rcases w.after_cases s with ⟨slot, hmakes, hafter⟩ | hkeeps
      · rw [hafter, append, List.length_append, List.length_singleton] at hlt
        have hlast : id = w.slots.length := Nat.le_antisymm (Nat.lt_succ_iff.1 hlt) hid
        have hmade := (node?_after_length w s).trans hmakes
        rw [← hlast] at hmade
        rw [run_cons, node?_run _ hmade] at h
        exact ⟨[], s, steps, slot.node, rfl, hlast.symm, hmakes, (Option.some.inj h).symm⟩
      · rw [hkeeps.length_eq] at hlt
        exact absurd hlt (Nat.not_lt.2 hid)
    · obtain ⟨before, made, later, n, hsteps, hlength, hmakes, hn⟩ := ih _ hge h
      exact ⟨s :: before, made, later, n, by rw [hsteps, List.cons_append], hlength, hmakes, hn⟩

end Workspace

end LoxFrontEnd
