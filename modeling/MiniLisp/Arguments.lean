import MiniLisp.Value.Coercion

/-! Arguments of functions, which are converted toward the declared types from left to right. A native
function first has their number checked against its parameters; one of the program takes as many as it
has parameters for, and leaves the others alone. -/

namespace MiniLisp

/-- The parameters for the arguments behind the first one: only a rest parameter that stands last takes
more than one. -/
def Param.behind (p : Param) (ps : List Param) : List Param := if p.rest && ps.isEmpty then [p] else ps

def convertArguments : List Param → List Value → Except Cause (List Value)
  | _, [] => .ok []
  | [], args => .ok args
  | p :: ps, a :: args => do
    let v ← a.coerce p.ty
    let vs ← convertArguments (p.behind ps) args
    return v :: vs

def bindArguments (params : List Param) (args : List Value) : Except Cause (List Value) := do
  (Arity.ofParams params).check args.length
  convertArguments params args

def suppliedArguments : List Param → List Value → Except Cause (List (String × Value))
  | p :: ps, a :: args => do
    let v ← a.coerce p.ty
    let bindings ← suppliedArguments ps args
    return (p.name, v) :: bindings
  | _, _ => .ok []

end MiniLisp
