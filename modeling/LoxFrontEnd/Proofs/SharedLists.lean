import LoxFrontEnd.Proofs.PassedLists

/-!
# Shared lists

Reading every list at its place gives the workspace, after every step. A list that is appended to changes
what is read of the one node or maker that has it, so nodes do not change each other, and nobody else
changes them.
-/

namespace LoxFrontEnd

namespace Store

variable {s s' : Store}

/-! ### Reading -/

theorem slot_congr {e : StoreEntry}
    (h : ∀ part, ∀ p ∈ e.places part, (s'.memory part).read p = (s.memory part).read p) :
    s'.slot e = s.slot e := by
  obtain ⟨cell, given⟩ := e
  have hparams := h .params
  have hbody := h .body
  cases cell with
  | leaf =>
    simp only [StoreEntry.places, StoreEntry.own?, Option.toList_none, List.nil_append,
      List.forall_mem_singleton] at hparams hbody
    simp only [slot, hparams, hbody]
  | function name own =>
    simp only [StoreEntry.places, StoreEntry.own?, Option.toList_some, List.singleton_append,
      List.forall_mem_cons] at hparams hbody
    simp only [slot, hparams, hbody]

/-- More lists in memory do not change what is read at the places in use. -/
theorem Separate.workspace_of_append (h : s.Separate) (s' : Store) {entries : List StoreEntry}
    (hmemory : ∀ part, ∃ more, s'.memory part = s.memory part ++ more)
    (hentries : s'.entries = s.entries ++ entries) :
    s'.workspace.slots = s.workspace.slots ++ entries.map s'.slot := by
  simp only [workspace, hentries, List.map_append]
  congr 1
  refine List.map_congr_left fun e he => slot_congr fun part p hp => ?_
  obtain ⟨more, hmore⟩ := hmemory part
  rw [hmore, Memory.read_append_of_lt ((h part).lt e he p hp)]

theorem workspace_modify (hentries : s'.entries = s.entries) {id : NodeId} {f : Slot → Slot}
    (hother : ∀ other e, s.entries[other]? = some e → other ≠ id → s'.slot e = s.slot e)
    (hself : ∀ e, s.entries[id]? = some e → s'.slot e = f (s.slot e)) :
    s'.workspace = s.workspace.modify id f := by
  simp only [workspace, Workspace.modify, hentries, Workspace.mk.injEq]
  refine List.ext_getElem? fun other => ?_
  rw [List.getElem?_modify, List.getElem?_map, List.getElem?_map]
  cases he : s.entries[other]? with
  | none => rfl
  | some e =>
    rw [Option.map_some, Option.map_some, Option.map_eq_map, Option.map_some]
    by_cases hid : id = other
    · rw [if_pos hid, hself e (hid ▸ he)]
    · rw [if_neg hid, hother other e he fun heq => hid heq.symm]

/-! ### Appending in place -/

theorem slot_push_of_notMem (part : Part) {place : Option Nat} {e : StoreEntry}
    (h : ∀ p ∈ place, p ∉ e.places part) (item : part.Item) :
    (s.push part place item).slot e = s.slot e := by
  cases place with
  | none => rfl
  | some p =>
    refine slot_congr fun other q hq => s.read_push_of_ne item ?_
    rintro rfl rfl
    exact h q rfl hq

/-- What is appended at a place of an entry changes no other entry. -/
theorem Separate.workspace_push (h : s.Separate) {part : Part} {id : NodeId} {place : Option Nat}
    {item : part.Item} {f : Slot → Slot}
    (hplace : ∀ p ∈ place, ∃ e, s.entries[id]? = some e ∧ p ∈ e.places part)
    (hself : ∀ e, s.entries[id]? = some e → (s.push part place item).slot e = f (s.slot e)) :
    (s.push part place item).workspace = s.workspace.modify id f := by
  refine workspace_modify (s.entries_push _ _ _) (fun other e he hne => ?_) hself
  refine slot_push_of_notMem part (fun p hp => ?_) item
  obtain ⟨owner, howner, hm⟩ := hplace p hp
  exact (h part).notMem howner he hne hm

theorem exists_of_own {part : Part} {id : NodeId} :
    ∀ p ∈ (s.entries[id]?).bind fun e => e.own? part,
      ∃ e, s.entries[id]? = some e ∧ p ∈ e.places part := by
  intro p hp
  obtain ⟨e, he, hp⟩ := Option.bind_eq_some_iff.1 hp
  exact ⟨e, he, List.mem_append_left _ (Option.mem_toList.2 hp)⟩

theorem exists_of_given {part : Part} {id : NodeId} :
    ∀ p ∈ (s.entries[id]?).map fun e => e.given part,
      ∃ e, s.entries[id]? = some e ∧ p ∈ e.places part := by
  intro p hp
  obtain ⟨e, he, rfl⟩ := Option.map_eq_some_iff.1 hp
  exact ⟨e, he, List.mem_append_right _ List.mem_cons_self⟩

theorem Separate.given_lt (h : s.Separate) {e : StoreEntry} (he : e ∈ s.entries) (part : Part) :
    e.given part < (s.memory part).length :=
  (h part).lt e he _ (List.mem_append_right _ List.mem_cons_self)

/-- A function's own lists are not the lists that it was made from. -/
theorem Separate.own (h : s.Separate) {name : Option Token} {own given : Part → Nat}
    (he : ⟨.function name own, given⟩ ∈ s.entries) (part : Part) :
    own part < (s.memory part).length ∧ own part ≠ given part := by
  have hlt := (h part).lt _ he
  have htwice := (h part).nodup_places he
  simp only [StoreEntry.places, StoreEntry.own?, Option.toList_some, List.singleton_append,
    List.forall_mem_cons, List.nodup_cons, List.mem_singleton] at hlt htwice
  exact ⟨hlt.1, htwice.1⟩

theorem Separate.pushParam (h : s.Separate) (id : NodeId) (param : Token) :
    (s.push .params ((s.entries[id]?).bind fun e => e.own? .params) param).workspace =
      s.workspace.modifyFunction id fun f => { f with params := f.params ++ [param] } := by
  refine h.workspace_push exists_of_own fun e he => ?_
  rw [he, Option.bind_some]
  obtain ⟨cell, given⟩ := e
  cases cell with
  | leaf => rfl
  | function name own =>
    obtain ⟨hlt, hne⟩ := h.own (List.mem_of_getElem? he) .params
    simp [StoreEntry.own?, push, slot, Memory.read_push_self hlt, Memory.read_push_ne hne.symm]

theorem Separate.pushBody (h : s.Separate) (id : NodeId) (child : NodeId) :
    (s.push .body ((s.entries[id]?).bind fun e => e.own? .body) child).workspace =
      s.workspace.modifyFunction id fun f => { f with body := f.body ++ [child] } := by
  refine h.workspace_push exists_of_own fun e he => ?_
  rw [he, Option.bind_some]
  obtain ⟨cell, given⟩ := e
  cases cell with
  | leaf => rfl
  | function name own =>
    obtain ⟨hlt, hne⟩ := h.own (List.mem_of_getElem? he) .body
    simp [StoreEntry.own?, push, slot, Memory.read_push_self hlt, Memory.read_push_ne hne.symm]

theorem Separate.pushGivenParam (h : s.Separate) (id : NodeId) (param : Token) :
    (s.push .params ((s.entries[id]?).map fun e => e.given .params) param).workspace =
      s.workspace.modify id fun t => { t with givenParams := t.givenParams ++ [param] } := by
  refine h.workspace_push exists_of_given fun e he => ?_
  have hm := List.mem_of_getElem? he
  have hlt := h.given_lt hm .params
  rw [he, Option.map_some]
  obtain ⟨cell, given⟩ := e
  cases cell with
  | leaf => simp [push, slot, Memory.read_push_self hlt]
  | function name own =>
    have hne := (h.own hm .params).2
    simp [push, slot, Memory.read_push_self hlt, Memory.read_push_ne hne]

theorem Separate.pushGivenBody (h : s.Separate) (id : NodeId) (child : NodeId) :
    (s.push .body ((s.entries[id]?).map fun e => e.given .body) child).workspace =
      s.workspace.modify id fun t => { t with givenBody := t.givenBody ++ [child] } := by
  refine h.workspace_push exists_of_given fun e he => ?_
  have hm := List.mem_of_getElem? he
  have hlt := h.given_lt hm .body
  rw [he, Option.map_some]
  obtain ⟨cell, given⟩ := e
  cases cell with
  | leaf => simp [push, slot, Memory.read_push_self hlt]
  | function name own =>
    have hne := (h.own hm .body).2
    simp [push, slot, Memory.read_push_self hlt, Memory.read_push_ne hne]

/-! ### Lists of children -/

/-- A list in memory that no node and no maker of one has. -/
structure Unowned (s : Store) (p : Nat) : Prop where
  lt : p < s.fresh .body
  notMem : ∀ e ∈ s.entries, p ∉ e.places .body

theorem Separate.unowned_children (h : s.Separate) (id : NodeId) :
    (s.children id).1.Unowned (s.children id).2 := by
  constructor
  · simp [children, fresh]
  · exact fun e he hp => Nat.lt_irrefl _ ((h .body).lt e he _ hp)

theorem Unowned.grows {p : Nat} (h : s.Unowned p) (hg : s.Grows s') : s'.Unowned p := by
  refine ⟨Nat.lt_of_lt_of_le h.lt (hg.fresh_le .body), fun e he hp => ?_⟩
  rcases hg.entries with hentries | ⟨last, hentries, hfresh⟩
  · exact h.notMem e (hentries ▸ he) hp
  · rw [hentries, List.mem_append, List.mem_singleton] at he
    rcases he with he | rfl
    · exact h.notMem e he hp
    · exact absurd h.lt (Nat.not_lt.2 ((hfresh .body).bounds p hp).1)

theorem Unowned.workspace_push {p : Nat} (h : s.Unowned p) (child : NodeId) :
    (s.push .body (some p) child).workspace = s.workspace := by
  have hslot (e : StoreEntry) (he : e ∈ s.entries) :
      (s.push .body (some p) child).slot e = s.slot e := by
    refine slot_push_of_notMem .body (fun q hq => ?_) child
    rw [← Option.some.inj hq]
    exact h.notMem e he
  exact congrArg Workspace.mk (List.map_congr_left hslot)

theorem Separate.workspace_children (h : s.Separate) (id : NodeId) :
    (s.children id).1.workspace = s.workspace := by
  have hmemory (part : Part) : ∃ more, (s.children id).1.memory part = s.memory part ++ more := by
    cases part with
    | params => exact ⟨[], (List.append_nil _).symm⟩
    | body => exact ⟨_, Function.update_self Part.body _ s.memory⟩
  have hslots := h.workspace_of_append (s.children id).1 hmemory (List.append_nil _).symm
  rw [List.map_nil, List.append_nil] at hslots
  exact congrArg Workspace.mk hslots

/-! ### Steps -/

theorem Separate.workspace_built (h : s.Separate) (name : Option Token)
    (params checked : List Token) (body : List NodeId) :
    (s.built name params checked body).workspace =
      s.workspace.append
        { node := .function ⟨name, checked, body⟩, givenParams := params, givenBody := body } := by
  have hmemory (part : Part) :
      ∃ more, (s.built name params checked body).memory part = s.memory part ++ more := by
    cases part with
    | params => exact ⟨_, List.append_assoc _ _ _⟩
    | body => exact ⟨_, List.append_assoc _ _ _⟩
  have hslots := h.workspace_of_append _ hmemory rfl
  refine congrArg Workspace.mk (hslots.trans ?_)
  simp [slot, built, write, fresh, Memory.read]

theorem Separate.workspace_leaf (h : s.Separate) :
    workspace { s.write [] [] with entries := s.entries ++ [⟨.leaf, s.fresh⟩] } =
      s.workspace.append { node := .leaf } := by
  have hmemory (part : Part) : ∃ more, (s.write [] []).memory part = s.memory part ++ more := by
    cases part with
    | params => exact ⟨_, rfl⟩
    | body => exact ⟨_, rfl⟩
  have hslots := h.workspace_of_append
    { s.write [] [] with entries := s.entries ++ [⟨.leaf, s.fresh⟩] } hmemory rfl
  refine congrArg Workspace.mk (hslots.trans ?_)
  simp [slot, write, fresh, Memory.read]

/-- A step on the store is a step on the workspace that is read from it. -/
theorem Separate.map_step (h : s.Separate) (st : Workspace.Step) :
    (s.step st).map (fun r => (r.1.workspace, r.2)) = s.workspace.step st := by
  have hlength : s.workspace.slots.length = s.entries.length := List.length_map _
  have hconstruct (name : Option Token) (params : List Token) (body : List NodeId) :
      ((s.write params body).construct name s.fresh).map (fun r => (r.1.workspace, r.2)) =
        ((Function.checkParams params).map fun checked => (⟨name, checked, body⟩ : Function)).map
          fun f => (s.workspace.append
            { node := .function f, givenParams := params, givenBody := body },
            s.workspace.slots.length) := by
    rw [construct_write, hlength]
    cases Function.checkParams params with
    | error e => rfl
    | ok checked => simp only [Except.map, h.workspace_built]
  cases st with
  | leaf => exact congrArg₂ (fun w id => Except.ok (w, id)) h.workspace_leaf hlength.symm
  | declare name params body =>
    cases name with
    | none => rfl
    | some name => exact hconstruct (some name) params body
  | anonymous params body => exact hconstruct none params body
  | inspect id => rfl
  | pushChild id child =>
    have hlist := (h.unowned_children id).workspace_push child
    exact congrArg (fun w => Except.ok (w, id)) (hlist.trans (h.workspace_children id))
  | pushParam id param => exact congrArg (fun w => Except.ok (w, id)) (h.pushParam id param)
  | pushBody id child => exact congrArg (fun w => Except.ok (w, id)) (h.pushBody id child)
  | pushGivenParam id param =>
    exact congrArg (fun w => Except.ok (w, id)) (h.pushGivenParam id param)
  | pushGivenBody id child =>
    exact congrArg (fun w => Except.ok (w, id)) (h.pushGivenBody id child)

theorem Separate.workspace_after (h : s.Separate) (st : Workspace.Step) :
    (s.after st).workspace = s.workspace.after st := by
  rw [after, Workspace.after, ← h.map_step]
  cases s.step st <;> rfl

theorem Separate.run (h : s.Separate) (steps : List Workspace.Step) :
    (s.run steps).Separate ∧ (s.run steps).workspace = s.workspace.run steps := by
  induction steps generalizing s with
  | nil => exact ⟨h, rfl⟩
  | cons st steps ih =>
    obtain ⟨hseparate, hworkspace⟩ := ih (h.grows (s.grows_after st))
    rw [h.workspace_after] at hworkspace
    exact ⟨hseparate, hworkspace⟩

theorem Unowned.run {p : Nat} (h : s.Unowned p) (steps : List Workspace.Step) :
    (s.run steps).Unowned p := by
  induction steps generalizing s with
  | nil => exact h
  | cons st steps ih => exact ih (h.grows (s.grows_after st))

end Store

/-! ### Runs -/

theorem Workspace.Step.flatMap_params_eq_nil {id : NodeId} {steps : List Workspace.Step}
    (h : ∀ param, .pushParam id param ∉ steps) : steps.flatMap (Step.params id) = [] := by
  refine List.flatMap_eq_nil_iff.2 fun st hst => ?_
  cases st with
  | pushParam other param =>
    have hne : other ≠ id := fun heq => h param (heq ▸ hst)
    rw [Step.params, if_neg hne]
  | _ => rfl

/-- The functions of a workspace, whatever was done with it. With every list in memory at its place, the
steps come to the same: constructions copy the lists that they are given, and a list of children is a new
one for good. A construction fails for want of a name or for the first parameter that is no identifier,
and then leaves everything as it was. A step changes a node only by appending to its own lists; so a
function has the parameters and the body that it was made from, and what was appended to them since. So
it is too when lists are passed on, one to two constructions or a node's own list to another node: no
place is that of two nodes' lists. -/
theorem workspace_runs :
    (∀ steps, (({} : Store).run steps).workspace = ({} : Workspace).run steps ∧
      ∀ st, ((({} : Store).run steps).step st).map (fun r => (r.1.workspace, r.2)) =
        (({} : Workspace).run steps).step st) ∧
    (∀ earlier id later child,
      let listed := (({} : Store).run earlier).children id
      ((listed.1.run later).push .body (some listed.2) child).workspace =
        (listed.1.run later).workspace) ∧
    (∀ (w : Workspace) name params body e, w.step (.declare name params body) = .error e ↔
      name = none ∧ e = .nameless ∨
        name ≠ none ∧ ∃ kind, FirstOther params kind ∧ e = .notIdentifier kind) ∧
    (∀ (w : Workspace) params body e, w.step (.anonymous params body) = .error e ↔
      ∃ kind, FirstOther params kind ∧ e = .notIdentifier kind) ∧
    (FunctionError.nameless.message =
        "FunctionStmt requires a name; use LambdaExpr for anonymous functions" ∧
      ∀ kind, (FunctionError.notIdentifier kind).message =
        "Parameter must be an identifier, got " ++ kind.name) ∧
    (∀ (w : Workspace) st e, w.step st = .error e → w.after st = w) ∧
    (∀ (w : Workspace) id param child other,
      (w.after (.pushGivenParam id param)).node? other = w.node? other ∧
      (w.after (.pushGivenBody id child)).node? other = w.node? other ∧
      (w.after (.pushChild id child)).node? other = w.node? other) ∧
    (∀ (w : Workspace) st id n, w.node? id = some n →
      (w.after st).node? id = some (n.extend (st.params id) (st.body id))) ∧
    (∀ steps id f, (({} : Workspace).run steps).node? id = some (.function f) →
      f.arity = f.params.length ∧ (({} : Workspace).run steps).children id = f.body ∧
      ∃ before made later params body, steps = before ++ made :: later ∧
        (({} : Workspace).run before).slots.length = id ∧
        (f.isAnonymous = true ∧ made = .anonymous params body ∨
          f.isAnonymous = false ∧ made = .declare f.name params body) ∧
        (∀ t ∈ params, t.kind = .identifier) ∧
        f.params = params ++ later.flatMap (Workspace.Step.params id) ∧
        f.body = body ++ later.flatMap (Workspace.Step.body id) ∧
        ((∀ param, .pushParam id param ∉ later) → f.params = params)) ∧
    ∀ actions,
      let s := ({} : Store).play actions
      (∀ part i j p, s.own? part i = some p → s.own? part j = some p → i = j) ∧
      (∀ name given e, s.perform (.declare name given) = .error e ↔
        name = none ∧ e = .nameless ∨ name ≠ none ∧
          ∃ kind, FirstOther ((s.memory .params).read (given .params)) kind ∧ e = .notIdentifier kind) ∧
      (∀ given e, s.perform (.anonymous given) = .error e ↔
        ∃ kind, FirstOther ((s.memory .params).read (given .params)) kind ∧ e = .notIdentifier kind) ∧
      ∀ id f, s.workspace.node? id = some (.function f) → Store.MadeBy actions id f := by
  have hstore (steps : List Workspace.Step) := Store.separate_empty.run steps
  refine ⟨fun steps => ⟨(hstore steps).2, fun st => ?steps⟩, fun earlier id later child => ?listed,
    fun w name params body e => map_eq_error_iff.trans Function.declare_eq_error_iff,
    fun w params body e => ?anonymous, ⟨rfl, fun kind => rfl⟩, fun w st e h => ?failed,
    fun w id param child other => ⟨w.node?_after_pushGivenParam id param other,
      w.node?_after_pushGivenBody id child other, rfl⟩,
    fun w st id n h => Workspace.node?_after w st h, fun steps id f h => ?history,
    fun actions => ⟨fun part i j p => (Store.owned_empty.play actions).eq_of_own?,
      fun name given e => Store.perform_declare_eq_error_iff,
      fun given e => Store.perform_anonymous_eq_error_iff, fun id f => Store.madeBy_of_play⟩⟩
  case steps =>
    obtain ⟨hseparate, hworkspace⟩ := hstore steps
    rw [hseparate.map_step, hworkspace]
    rfl
  case listed =>
    have hunowned := (hstore earlier).1.unowned_children id
    exact (hunowned.run later).workspace_push child
  case anonymous =>
    exact map_eq_error_iff.trans (map_eq_error_iff.trans Function.checkParams_eq_error_iff)
  case failed => rw [Workspace.after, h]
  case history =>
    have hchildren : (({} : Workspace).run steps).children id = f.body := by
      rw [Workspace.children, h]
      rfl
    obtain ⟨before, made, later, n, hsteps, hlength, hmakes, hn⟩ :=
      Workspace.exists_made_of_node?_run {} (Nat.zero_le id) h
    cases n with
    | leaf => cases hn
    | function g =>
      obtain ⟨hall, hmade⟩ := Workspace.Step.construction_of_makes hmakes
      obtain rfl := Node.function.inj hn
      refine ⟨rfl, hchildren, before, made, later, g.params, g.body, hsteps, hlength, hmade, hall, rfl,
        rfl, fun hpush => ?_⟩
      rw [Workspace.Step.flatMap_params_eq_nil hpush, List.append_nil]

/-- A parameter is appended to the list that a function was made from, and another one to its own. Then
one list is given to two functions, and the first one's own list to a third. -/
theorem workspace_runs_parameter :
    let parameter (name : String) : Token :=
      { kind := .identifier, lexeme := name, literal := none, line := 1 }
    let steps : List Workspace.Step :=
      [.leaf, .anonymous [parameter "a"] [0], .pushGivenParam 1 (parameter "b"), .pushChild 1 0,
        .pushParam 1 (parameter "c")]
    let w := ({} : Workspace).run steps
    let f : Function := ⟨none, [parameter "a", parameter "c"], [0]⟩
    let actions : List Store.Action :=
      [.write [parameter "a"] [], .anonymous fun _ => 0, .anonymous fun _ => 0,
        .declare (some (parameter "g")) fun _ => 1, .push .params 1 (parameter "b"),
        .push .params 0 (parameter "c")]
    let passed := (({} : Store).play actions).workspace
    let g : Function := ⟨none, [parameter "a", parameter "b"], []⟩
    w.node? 1 = some (.function f) ∧ w.step (.declare none f.params []) = .error .nameless ∧
      w.after (.declare none f.params []) = w ∧
      (w.after (.pushBody 1 0)).node? 1 = some ((Node.function f).extend [] [0]) ∧
      (∃ before made later params body, steps = before ++ made :: later ∧
        made = .anonymous params body ∧ (∀ t ∈ params, t.kind = .identifier) ∧
        f.params = params ++ later.flatMap (Workspace.Step.params 1)) ∧
      passed.node? 0 = some (.function g) ∧
      passed.node? 1 = some (.function { g with params := [parameter "a"] }) ∧
      passed.node? 2 = some (.function ⟨some (parameter "g"), [parameter "a"], []⟩) ∧
      Store.MadeBy actions 0 g := by
  intro parameter steps w f actions passed g
  have hnode : w.node? 1 = some (.function f) := rfl
  have herror : w.step (.declare none f.params []) = .error .nameless := rfl
  have hpassed : passed.node? 0 = some (.function g) := rfl
  obtain ⟨-, -, -, -, -, hfailed, -, hframe, hhistory, hactions⟩ := workspace_runs
  obtain ⟨-, -, -, hmade⟩ := hactions actions
  obtain ⟨-, -, before, made, later, params, body, hsteps, -, hconstruction, hall, hparams, -⟩ :=
    hhistory steps 1 f hnode
  have hanonymous : made = .anonymous params body := by
    rcases hconstruction with ⟨-, hconstruction⟩ | ⟨hnamed, -⟩
    · exact hconstruction
    · cases hnamed
  exact ⟨hnode, herror, hfailed w _ _ herror, hframe w (.pushBody 1 0) 1 _ hnode,
    ⟨before, made, later, params, body, hsteps, hanonymous, hall, hparams⟩, hpassed, rfl, rfl,
    hmade 0 g hpassed⟩

end LoxFrontEnd
