import MiniLisp.Arguments
import MiniLisp.Eval.Basic

/-! The evaluator. Every nested step of an evaluation is one level deeper, and at most `maxDepth` levels
are left: the evaluator of a level is built from that of the level below it, and the lowest level
refuses. An error takes the position of the innermost list being evaluated that has one. -/

namespace MiniLisp

/-- Evaluation one level deeper: of an expression, and of a list as a call. -/
structure Level where
  expr : Value → Eval Value
  call : List Value → Eval Value

namespace Level

open Eval

/-- The body of a function or a `let`: a list is a call, quoted or not. -/
def body (k : Level) : Value → Eval Value
  | .list items _ opened => located opened (k.call items)
  | v => k.expr v

def exprs (k : Level) : List Value → Eval (List Value)
  | [] => pure []
  | e :: es => do
    let v ← k.expr e
    let vs ← k.exprs es
    return v :: vs

/-- Runs a function. A native one is strict in the number of its arguments; one of the program binds as
many parameters as there are arguments, and runs in the global scope if it has captured none. -/
def apply (k : Level) (f : Value) (args : List Value) : Eval Value :=
  match f with
  | .native h n => do
    let args ← ofExcept (bindArguments h.params args)
    let m ← get
    perform (m.operation n args)
  | .lambda h body captured => do
    let bindings ← ofExcept (suppliedArguments h.params args)
    let m ← get
    calling (captured.getD m.global) (.ofList bindings) (k.body body)
  | v => fail (.notCallable v)

def condition (form : SpecialForm) : Value → Eval Bool
  | .bool b => pure b
  | v => fail (.conditionNotBool form v)

def sequence (k : Level) (last : Value) : List Value → Eval Value
  | [] => pure last
  | e :: es => do
    let v ← k.expr e
    k.sequence v es

def conditional (k : Level) : List Value → Eval Value
  | [test, yes] => do
    let b ← condition .conditional (← k.expr test)
    if b then k.expr yes else pure .nil
  | [test, yes, no] => do
    let b ← condition .conditional (← k.expr test)
    if b then k.expr yes else k.expr no
  | operands => fail (.argumentCount (.between 2 3) operands.length)

def branch? : Value → Option (Value × Value)
  | .list [test, result] _ _ => some (test, result)
  | _ => none

def isElse : Value → Bool
  | .keyword name => name == "else"
  | _ => false

/-- The result of the first branch whose condition is true. A branch under `:else` is kept for the
end, the latest such one. -/
def choice (k : Level) (fallback : Option Value) : List Value → Eval Value
  | [] =>
    match fallback with
    | some result => k.expr result
    | none => pure .nil
  | b :: bs =>
    match branch? b with
    | none => fail (.malformedBranch b)
    | some (test, result) => do
      let v ← k.expr test
      if isElse v then k.choice (some result) bs
      else
        let holds ← condition .choice v
        if holds then k.expr result else k.choice fallback bs

def evaluation (k : Level) : List Value → Eval Value
  | [e] => do
    match ← k.expr e with
    | .list items _ opened => located opened (k.call items)
    | v => pure v
  | operands => fail (.argumentCount (.exactly 1) operands.length)

def binding (k : Level) : List Value → Eval Value
  | [.list [.symbol name, e] _ _, body] => do
    let v ← k.expr e
    within (.ofList [(name, v)]) (k.body body)
  | [.list [target, _] _ _, _] => fail (.bindingTarget target)
  | [.list items _ _, _] => fail (.argumentCount (.exactly 2) items.length)
  | [v, _] => fail (.bindingNotList v)
  | operands => fail (.argumentCount (.exactly 2) operands.length)

def definition (k : Level) : List Value → Eval Value
  | [.symbol name, e] => do
    let v ← k.expr e
    modify (·.define name v)
    return v
  | [target, _] => fail (.definitionTarget target)
  | operands => fail (.argumentCount (.exactly 2) operands.length)

/-- The names of parameters, all different; `seen` are those before. -/
def paramNames (seen : List String) : List Value → Except Cause (List String)
  | [] => .ok []
  | .symbol name :: ps =>
    if name ∈ seen then .error (.duplicateParam name)
    else do
      let names ← paramNames (name :: seen) ps
      return name :: names
  | p :: _ => .error (.paramNotSymbol p)

def functionDefinition : List Value → Eval Value
  | [.symbol name, .list params _ _, body] => do
    let names ← ofExcept (paramNames [] params)
    modifyGet (·.defineFunction name names body)
  | [.symbol _, params, _] => fail (.paramsNotList params)
  | [name, _, _] => fail (.functionName name)
  | operands => fail (.argumentCount (.exactly 3) operands.length)

def special (k : Level) (form : SpecialForm) (operands : List Value) : Eval Value :=
  match form with
  | .sequence => k.sequence .nil operands
  | .conditional => k.conditional operands
  | .choice => k.choice none operands
  | .evaluation => k.evaluation operands
  | .binding => k.binding operands
  | .definition => k.definition operands
  | .functionDefinition => functionDefinition operands

/-- A list as a call: of the special form or the function that its head evaluates to. A list of one
element that is neither is that element's value, and the empty list is nil. -/
def run (k : Level) : List Value → Eval Value
  | [] => pure .nil
  | head :: operands => do
    match ← k.expr head with
    | .special form => k.special form operands
    | .native h n => do
      let args ← k.exprs operands
      k.apply (.native h n) args
    | .lambda h body captured => do
      let args ← k.exprs operands
      k.apply (.lambda h body captured) args
    | v => if operands.isEmpty then pure v else fail (.notCallable v)

/-- An expression with `depth` levels left, given how lists are run there: symbols are looked up,
lists that are not quoted are run, and everything else stands for itself. -/
def exprAt (call : List Value → Eval Value) (depth : Nat) (e : Value) : Eval Value :=
  match depth, e with
  | 0, _ => fail .depthExceeded
  | _ + 1, .symbol name => resolve name
  | _ + 1, .list items false opened => located opened (call items)
  | _ + 1, v => pure v

/-- A list as a call, with `depth` levels left. -/
def callAt : Nat → List Value → Eval Value
  | 0, [] => pure .nil
  | 0, _ :: _ => fail .depthExceeded
  | depth + 1, items => run ⟨exprAt (callAt depth) depth, callAt depth⟩ items

/-- Evaluation with `depth` levels left. -/
def ofDepth (depth : Nat) : Level := ⟨exprAt (callAt depth) depth, callAt depth⟩

/-- Evaluation at a depth that is counted in a machine word: what is nested in a list at the last depth
that a word holds is at depth zero again. -/
def atDepth (depth : UInt64) : Level where
  expr := (ofDepth (maxDepth - depth.toNat)).expr
  call := if depth + 1 = 0 then callAt (maxDepth + 1) else callAt (maxDepth - depth.toNat)

end Level
end MiniLisp
