import LoxFrontEnd.Function.Basic

/-!
# Workspaces of nodes

A growing set of nodes that refer to each other by number. Whoever made a function keeps the lists that
it was made from; the function has lists of its own, so only what is appended to a node's own list
changes that node, and no other.
-/

namespace LoxFrontEnd

/-- A node, and the lists that its maker keeps. -/
structure Slot where
  node : Node
  givenParams : List Token := []
  givenBody : List NodeId := []
deriving DecidableEq

structure Workspace where
  slots : List Slot := []
deriving DecidableEq

namespace Workspace

/-! ### Looking at nodes -/

def slot? (w : Workspace) (id : NodeId) : Option Slot := w.slots[id]?

def node? (w : Workspace) (id : NodeId) : Option Node := (w.slot? id).map Slot.node

def children (w : Workspace) (id : NodeId) : List NodeId :=
  match w.node? id with
  | some n => n.children
  | none => []

def title (w : Workspace) (id : NodeId) : String :=
  match w.node? id with
  | some n => n.title
  | none => ""

/-! ### Steps -/

inductive Step where
  | leaf
  | declare (name : Option Token) (params : List Token) (body : List NodeId)
  | anonymous (params : List Token) (body : List NodeId)
  | inspect (id : NodeId)
  | pushParam (id : NodeId) (param : Token)
  | pushBody (id : NodeId) (child : NodeId)
  | pushChild (id : NodeId) (child : NodeId)
  | pushGivenParam (id : NodeId) (param : Token)
  | pushGivenBody (id : NodeId) (child : NodeId)
deriving DecidableEq

def append (w : Workspace) (s : Slot) : Workspace := ⟨w.slots ++ [s]⟩

def modify (w : Workspace) (id : NodeId) (f : Slot → Slot) : Workspace := ⟨w.slots.modify id f⟩

/-- Change a function's own lists; a leaf has none. -/
def modifyFunction (w : Workspace) (id : NodeId) (f : Function → Function) : Workspace :=
  w.modify id fun s =>
    match s.node with
    | .leaf => s
    | .function g => { s with node := .function (f g) }

/-- The workspace after a step, and the node that the step is about. A list of children is made anew
whenever it is asked for, so appending to one leaves nothing behind. -/
def step (w : Workspace) : Step → Except FunctionError (Workspace × NodeId)
  | .leaf => .ok (w.append { node := .leaf }, w.slots.length)
  | .declare name params body =>
    (Function.declare name params body).map fun f =>
      (w.append { node := .function f, givenParams := params, givenBody := body }, w.slots.length)
  | .anonymous params body =>
    (Function.anonymous params body).map fun f =>
      (w.append { node := .function f, givenParams := params, givenBody := body }, w.slots.length)
  | .inspect id => .ok (w, id)
  | .pushParam id param =>
    .ok (w.modifyFunction id fun f => { f with params := f.params ++ [param] }, id)
  | .pushBody id child =>
    .ok (w.modifyFunction id fun f => { f with body := f.body ++ [child] }, id)
  | .pushChild id _ => .ok (w, id)
  | .pushGivenParam id param =>
    .ok (w.modify id fun s => { s with givenParams := s.givenParams ++ [param] }, id)
  | .pushGivenBody id child =>
    .ok (w.modify id fun s => { s with givenBody := s.givenBody ++ [child] }, id)

theorem slot?_append_of_lt (w : Workspace) (s : Slot) {id : NodeId} (h : id < w.slots.length) :
    (w.append s).slot? id = w.slot? id := by
  simp only [slot?, append]
  exact List.getElem?_append_left h

end Workspace

end LoxFrontEnd
