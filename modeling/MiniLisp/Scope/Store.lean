import MiniLisp.Scope.Bindings
import MiniLisp.Text.Basic
import MiniLisp.Text.Quoted
import MiniLisp.Value.Basic

/-! Scopes. A scope has bindings of its own and lies in other scopes, nearest first; a root scope lies
in none. All scopes live in one store, which only grows, and a scope is known by its number there, so
two scopes with the same bindings are still two. Looking a name up takes the nearest scope that binds
it. -/

namespace MiniLisp

structure Scope where
  bindings : Bindings Value := ∅
  outer : List ScopeId := []
deriving Inhabited

structure Store where
  scopes : Array Scope := #[]
deriving Inhabited

namespace Store

def get (s : Store) (id : ScopeId) : Scope := s.scopes[id.index]?.getD {}

/-- The number of the next scope. -/
def fresh (s : Store) : ScopeId := ⟨s.scopes.size⟩

def add (s : Store) (scope : Scope) : Store := ⟨s.scopes.push scope⟩

def addRoot (s : Store) (bindings : Bindings Value) : Store := s.add ⟨bindings, []⟩

/-- The scope itself and all it lies in, nearest first. -/
def chain (s : Store) (id : ScopeId) : List ScopeId := id :: (s.get id).outer

def addIn (s : Store) (id : ScopeId) (bindings : Bindings Value) : Store :=
  s.add ⟨bindings, s.chain id⟩

def parent? (s : Store) (id : ScopeId) : Option ScopeId := (s.get id).outer.head?

def isRoot (s : Store) (id : ScopeId) : Bool := (s.parent? id).isNone

def define (s : Store) (id : ScopeId) (name : String) (v : Value) : Store :=
  ⟨s.scopes.modify id.index fun scope => { scope with bindings := scope.bindings.insert name v }⟩

def lookup (s : Store) (id : ScopeId) (name : String) : Option Value :=
  (s.chain id).findSome? fun i => (s.get i).bindings.get? name

/-- All that can be looked up from a scope. -/
def visible (s : Store) (id : ScopeId) : Bindings Value :=
  (s.chain id).foldr (fun i seen => seen.override (s.get i).bindings) ∅

/-- Adds a root scope with all that can be looked up from `id` at this moment. -/
def addFlat (s : Store) (id : ScopeId) : Store := s.addRoot (s.visible id)

/-- The names that a scope binds, and those of each scope it lies in. -/
def diagnosticOf (s : Store) (id : ScopeId) (outer : List ScopeId) : String :=
  "Environment \x7b bindings: [" ++
    Text.joined ", " ((s.get id).bindings.names.map Text.revealed) ++ "], parent: " ++
    (match outer with
      | [] => "None"
      | p :: ps => "Some(" ++ diagnosticOf s p ps ++ ")") ++ " \x7d"

def diagnostic (s : Store) (id : ScopeId) : String := s.diagnosticOf id (s.get id).outer

end Store
end MiniLisp
