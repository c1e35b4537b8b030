import MiniLisp.Eval.Level

/-! Whole programs, and what else a host asks of an interpreter. A program is read before any of it is
evaluated; its forms are evaluated in order up to the first error, and its value is that of its last
form. -/

namespace MiniLisp

namespace Eval

def expression (e : Value) : Eval Value := (Level.ofDepth maxDepth).expr e

/-- The value of the last form, or `last` if there is none. -/
def forms (last : Option Value) : List Value → Eval (Option Value)
  | [] => pure last
  | e :: es => do
    let v ← expression e
    forms (some v) es

def program (source : String) : Eval (Option Value) := do
  match readForms (← get).config source with
  | .ok es => forms none es
  | .error e => throw (.reading e)

/-- A function called at some depth; its body is one deeper. -/
def call (f : Value) (args : List Value) (depth : UInt64) : Eval Value :=
  (Level.atDepth (depth + 1)).apply f args

end Eval

/-- One thing that a host asks of an interpreter. -/
inductive Step where
  | run (source : String)
  | evaluate (e : Value)
  | forms (es : List Value)
  /-- Calls what `name` means. -/
  | call (name : String) (args : List Value) (depth : UInt64)
  | define (name : String) (v : Value)
  | enter (bindings : Bindings Value)
  | leave
  | register (d : Definition)

/-- What a step does, and the value it has if it is for one. -/
def Step.perform : Step → Eval (Option Value)
  | run source => Eval.program source
  | evaluate e => do return some (← Eval.expression e)
  | forms es => Eval.forms none es
  | call name args depth => do return some (← Eval.call (← Eval.resolve name) args depth)
  | define name v => do
    modify (·.define name v)
    return none
  | enter bindings => do
    modify (·.enter bindings)
    return none
  | leave => do
    Eval.leave
    return none
  | register d => do
    modify (·.register d)
    return none

namespace Machine

def step (m : Machine) (s : Step) : Except Error (Option Value) × Machine := s.perform.run.run m

def steps (m : Machine) (ss : List Step) : Machine := ss.foldl (fun m s => (m.step s).2) m

def run (m : Machine) (source : String) : Except Error (Option Value) × Machine :=
  m.step (.run source)

end Machine
end MiniLisp
