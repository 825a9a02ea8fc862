import LoxFrontEnd.Token.Basic

/-!
# Function nodes

The shape that a named function declaration and an anonymous function share: parameters, a body of
further nodes, and a name that only the anonymous one lacks. A declaration is a statement, an anonymous
function an expression.
-/

namespace LoxFrontEnd

/-- The number of a node, from zero in the order of their making. -/
abbrev NodeId := Nat

structure Function where
  name : Option Token
  params : List Token
  body : List NodeId
deriving DecidableEq

inductive FunctionError where
  | nameless
  | notIdentifier (kind : Kind)
deriving DecidableEq

def FunctionError.message : FunctionError → String
  | .nameless => "FunctionStmt requires a name; use LambdaExpr for anonymous functions"
  | .notIdentifier kind => "Parameter must be an identifier, got " ++ kind.name

namespace Function

/-- The parameters, if all of them are identifiers; the first that is none is the fault. -/
def checkParams (params : List Token) : Except FunctionError (List Token) :=
  match params.find? fun t => t.kind != .identifier with
  | some t => .error (.notIdentifier t.kind)
  | none => .ok params

/-- A named function; a missing name is noticed before the parameters are looked at. -/
def declare (name : Option Token) (params : List Token) (body : List NodeId) :
    Except FunctionError Function :=
  match name with
  | none => .error .nameless
  | some name => (checkParams params).map fun params => ⟨some name, params, body⟩

def anonymous (params : List Token) (body : List NodeId) : Except FunctionError Function :=
  (checkParams params).map fun params => ⟨none, params, body⟩

def isAnonymous (f : Function) : Bool := f.name.isNone

def arity (f : Function) : Nat := f.params.length

/-- The name that a running program would show. -/
def displayName (f : Function) : String :=
  match f.name with
  | none => "<lambda>"
  | some name => "<fn " ++ name.lexeme ++ ">"

def signature (f : Function) : String :=
  let params := "(" ++ String.intercalate ", " (f.params.map Token.lexeme) ++ ")"
  match f.name with
  | none => "LambdaExpr(" ++ params ++ ")"
  | some name => "FunctionStmt(" ++ name.lexeme ++ params ++ ")"

theorem checkParams_eq_ok_iff {params qs : List Token} :
    checkParams params = .ok qs ↔ (∀ t ∈ params, t.kind = .identifier) ∧ qs = params := by
  unfold checkParams
  split
  · next t h =>
    have hk := List.find?_some h
    have hm := List.mem_of_find?_eq_some h
    simp only [reduceCtorEq, false_iff, not_and]
    intro hall
    simp [hall t hm] at hk
  · next h =>
    simp only [List.find?_eq_none, bne_iff_ne, ne_eq, Decidable.not_not] at h
    constructor
    · intro e
      exact ⟨h, (Except.ok.inj e).symm⟩
    · rintro ⟨-, rfl⟩
      rfl

end Function

/-! ### Nodes -/

/-- A node: a statement without parts, or a function. -/
inductive Node where
  | leaf
  | function (f : Function)
deriving DecidableEq

namespace Node

def children : Node → List NodeId
  | leaf => []
  | function f => f.body

/-- All but the anonymous functions are statements. -/
def isStatement : Node → Bool
  | leaf => true
  | function f => !f.isAnonymous

def isExpression : Node → Bool
  | leaf => false
  | function f => f.isAnonymous

def isFunction : Node → Bool
  | leaf => false
  | function _ => true

def title : Node → String
  | leaf => "Leaf()"
  | function f => f.signature

end Node

end LoxFrontEnd
