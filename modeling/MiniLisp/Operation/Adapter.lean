import MiniLisp.Operation.Basic

/-! Operations from typed functions. A shape lists what is demanded of each argument; the adapted
operation counts its arguments, takes the payload out of each from left to right, those of the rest
last, and only then runs the function. Nothing is converted here: a value of another type is an error.
The values of a list are all checked before any payload is taken out, so that taking it out needs no
error of its own. -/

namespace MiniLisp

inductive Item where
  | number | bool | text | any
deriving DecidableEq

namespace Item

abbrev Payload : Item → Type
  | number => Float
  | bool => Bool
  | text => String
  | any => Value

/-- The declared type under which conversion always meets the demand. -/
def ty : Item → Ty
  | number => .number
  | bool => .bool
  | text => .string
  | any => .any

def extract : (i : Item) → Value → Except Cause i.Payload
  | number, .number x => .ok x
  | bool, .bool b => .ok b
  | text, .string s => .ok s
  | any, v => .ok v
  | i, v => .error (.wrongArgument i.ty v)

def admits : Item → Value → Bool
  | number, .number _ | bool, .bool _ | text, .string _ | any, _ => true
  | _, _ => false

/-- Complains about the first value that has no payload. -/
def precheck (i : Item) (vs : List Value) : Except Cause Unit :=
  match vs.find? fun v => !i.admits v with
  | some v => .error (.wrongArgument i.ty v)
  | none => .ok ()

/-- The payload of a value that has passed the check. -/
def project : (i : Item) → Value → Except Cause i.Payload
  | number, .number x => .ok x
  | bool, .bool b => .ok b
  | text, .string s => .ok s
  | any, v => .ok v
  | i, _ => .error (.unreachable i.ty)

def extractAll (i : Item) (vs : List Value) : Except Cause (List i.Payload) := do
  i.precheck vs
  vs.mapM i.project

end Item

/-- What is demanded of one argument: a value, or a list of values. -/
inductive Demand where
  | one (i : Item)
  | listOf (i : Item)
deriving DecidableEq

namespace Demand

abbrev Payload : Demand → Type
  | one i => i.Payload
  | listOf i => List i.Payload

def extract : (d : Demand) → Value → Except Cause d.Payload
  | one i, v => i.extract v
  | listOf i, .list items _ _ => i.extractAll items
  | listOf _, v => .error (.wrongArgument .list v)

abbrev Handler : List Demand → Type → Type
  | [], r => r
  | d :: ds, r => d.Payload → Handler ds r

/-- Applies a function to the payloads of as many arguments as it has demands. -/
def feed {r : Type} : (ds : List Demand) → Handler ds r → List Value → Except Cause r
  | [], f, _ => .ok f
  | d :: ds, f, args => do
    let p ← d.extract (args.headD .nil)
    feed ds (f p) args.tail

end Demand

def countAdapted (expected : Arity) (got : Nat) : Except Cause Unit :=
  if expected.admits got then .ok () else .error (.adapterCount expected got)

/-- Takes exactly the demanded arguments. -/
def adapt (ds : List Demand) (f : Demand.Handler ds (Op Value)) : Operation := fun args => do
  Op.ofExcept (countAdapted (.exactly ds.length) args.length)
  let run ← Op.ofExcept (Demand.feed ds f args)
  run

/-- Takes the demanded arguments and any number of further ones. -/
def adaptRest (ds : List Demand) (rest : Item)
    (f : Demand.Handler ds (List rest.Payload → Op Value)) : Operation := fun args => do
  Op.ofExcept (countAdapted (.atLeast ds.length) args.length)
  let g ← Op.ofExcept (Demand.feed ds f args)
  let ps ← Op.ofExcept (rest.extractAll (args.drop ds.length))
  g ps

end MiniLisp
