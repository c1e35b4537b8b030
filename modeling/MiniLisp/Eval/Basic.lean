import MiniLisp.Machine

/-! Evaluations: they act on a machine and end with a value or an error, and what they did to the
machine stays done when they fail. -/

namespace MiniLisp

abbrev Eval := ExceptT Error (StateM Machine)

namespace Eval

def fail {α : Type} (c : Cause) : Eval α := throw (.ofCause c)

def ofExcept {α : Type} : Except Cause α → Eval α
  | .ok a => pure a
  | .error c => fail c

/-- Gives an error of `e` that has no position this one. -/
def located {α : Type} (p : Option Position) (e : Eval α) : Eval α := ExceptT.adapt (Error.orAt p) e

def outcome {α : Type} (e : Eval α) : Eval (Except Error α) := ExceptT.lift e.run

def ofOutcome {α : Type} (r : Except Error α) : Eval α := ExceptT.mk (pure r)

/-- An operation sees nothing of the machine but its world. -/
def perform {α : Type} (op : Op α) : Eval α := ExceptT.mk fun m =>
  match op m.world with
  | (.ok a, w) => (.ok a, { m with world := w })
  | (.error c, w) => (.error (.ofCause c), { m with world := w })

def resolve (name : String) : Eval Value := do
  ofExcept ((← get).resolve name)

def leave : Eval Unit := do
  match (← get).leave? with
  | some m => set m
  | none => throw .leftRoot

/-- Runs `e` in a new scope in the current one. -/
def within {α : Type} (bindings : Bindings Value) (e : Eval α) : Eval α := do
  modify (·.enter bindings)
  let result ← outcome e
  leave
  ofOutcome result

/-- Runs `e` in a new scope in `scope`, and goes back to the scope that was current. -/
def calling {α : Type} (scope : ScopeId) (bindings : Bindings Value) (e : Eval α) : Eval α := do
  let saved := (← get).current
  modify fun m => { m with current := scope }.enter bindings
  let result ← outcome e
  modify fun m => { m with current := saved }
  ofOutcome result

end Eval

end MiniLisp
