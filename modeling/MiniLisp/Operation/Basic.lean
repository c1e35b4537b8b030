import MiniLisp.Error

/-! Operations: what a native function does with its arguments. An operation may print, draw random
numbers and fail. What it does follows from its arguments and the world alone, and is done to the world
alone. Not every function that a host can write is of this kind: one that keeps a state of its own, that
binds a name in the scope which a function among its arguments has captured, or that fails with a
position of its own or for a malformed text, is not described here. -/

namespace MiniLisp

/-- What an operation acts on: the text printed so far, an endless row of random words, and how many
of them are used up. -/
structure World where
  output : String := ""
  rolls : Nat → UInt64
  rolled : Nat := 0

/-- Neither the scopes nor the interpreter are within reach of an operation, and an error of it has no
position yet. -/
abbrev Op := ExceptT Cause (StateM World)

abbrev Operation := List Value → Op Value

namespace Op

def answer (v : Value) : Op Value := pure v

def write (s : String) : Op Unit := modify fun w => { w with output := w.output ++ s }

/-- A random number from zero up to, not including, one: a multiple of `2 ^ -53`. -/
def roll : Op Float := do
  let w ← get
  set { w with rolled := w.rolled + 1 }
  return (w.rolls w.rolled >>> 11).toFloat * Number.ofRank false ((1023 - 53) * Number.twoTo 52)

/-- Continues with a result that depends on nothing. -/
def ofExcept {α : Type} : Except Cause α → Op α
  | .ok a => pure a
  | .error c => throw c

end Op

/-- A native function before it is given a serial number. -/
structure Definition where
  name : String
  doc : String
  params : List Param
  returns : Ty
  arity : Arity
  run : Operation

namespace Definition

def fixed (name doc : String) (params : List Param) (returns : Ty) (run : Operation) : Definition :=
  ⟨name, doc, params, returns, .exactly params.length, run⟩

/-- Takes as many arguments as `arity` admits, which is checked before the operation runs. -/
def variadic (name doc : String) (params : List Param) (returns : Ty) (arity : Arity)
    (run : Operation) : Definition :=
  ⟨name, doc, params, returns, arity, fun args => do
    Op.ofExcept (arity.check args.length)
    run args⟩

/-- A function of the host: it may return anything, and says no more of itself. -/
def hostFixed (name : String) (params : List (String × Ty)) (run : Operation) : Definition :=
  fixed name "Host function" (params.map fun (p, ty) => ⟨p, ty, false⟩) .any run

/-- A function of the host whose last parameter, given apart, takes the rest of the arguments. -/
def hostVariadic (name : String) (params : List (String × Ty)) (rest : String × Ty) (arity : Arity)
    (run : Operation) : Definition :=
  variadic name "Host function"
    ((params.map fun (p, ty) => ⟨p, ty, false⟩) ++ [⟨rest.1, rest.2, true⟩]) .any arity run

def header (d : Definition) (serial : Nat) : Header := ⟨serial, d.name, d.doc, d.params, d.returns⟩

def paramDiagnostic (p : Param) : String :=
  "Parameter \x7b name: " ++ Text.revealed p.name ++ ", ty: " ++ p.ty.title ++ ", is_rest: " ++
    Text.ofBool p.rest ++ " \x7d"

def diagnostic (d : Definition) : String :=
  "BuiltinOp \x7b id: " ++ Text.revealed d.name ++ ", params: [" ++
    Text.joined ", " (d.params.map paramDiagnostic) ++ "], return_type: " ++ d.returns.title ++
    ", arity: " ++ d.arity.diagnostic ++ ", .. \x7d"

end Definition
end MiniLisp
