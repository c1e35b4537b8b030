import MiniLisp.Builtin.Table
import MiniLisp.Scope.Store

/-! The state of an interpreter. Definitions go to the global scope; evaluation happens in the current
one. A name means what the current scope and those it lies in bind it to, then what the global scope
binds it to, then the special form and last the builtin of that name. -/

namespace MiniLisp

structure Machine where
  store : Store
  global : ScopeId
  current : ScopeId
  builtins : Bindings Value
  hostOperations : Array Operation
  nextSerial : Nat
  config : ReaderConfig
  world : World

namespace Machine

def builtinTable : Bindings Value :=
  .ofList (Builtin.all.zipIdx.map fun (b, i) => (b.name, b.toValue i))

/-- A new interpreter: the global scope binds the two truth values and nothing else. -/
def new (config : ReaderConfig) (rolls : Nat → UInt64) : Machine where
  store := Store.addRoot {} (.ofList [("true", .bool true), ("false", .bool false)])
  global := ⟨0⟩
  current := ⟨0⟩
  builtins := builtinTable
  hostOperations := #[]
  nextSerial := Builtin.all.length
  config := config
  world := { rolls := rolls }

def resolve (m : Machine) (name : String) : Except Cause Value :=
  match m.store.lookup m.current name <|> m.store.lookup m.global name with
  | some v => .ok v
  | none =>
    match SpecialForm.ofName? name with
    | some f => .ok (.special f)
    | none =>
      match m.builtins.get? name with
      | some v => .ok v
      | none => .error (.unbound name)

def define (m : Machine) (name : String) (v : Value) : Machine :=
  { m with store := m.store.define m.global name v }

def enter (m : Machine) (bindings : Bindings Value) : Machine :=
  let id := m.store.fresh
  { m with store := m.store.addIn m.current bindings, current := id }

/-- Goes back to the scope that the current one lies in, unless it lies in none. -/
def leave? (m : Machine) : Option Machine :=
  match m.store.parent? m.current with
  | some p => some { m with current := p }
  | none => none

/-- What a function defined now under `name` captures: all that is visible from the current scope and
then from the global one, but nothing of its own name. -/
def captured (m : Machine) (name : String) : Bindings Value :=
  ((m.store.visible m.global).override (m.store.visible m.current)).erase name

def defineFunction (m : Machine) (name : String) (params : List String) (body : Value) :
    Value × Machine :=
  let header : Header :=
    ⟨m.nextSerial, name, "Custom function", params.map fun p => ⟨p, .any, false⟩, .any⟩
  let f := Value.lambda header body (some m.store.fresh)
  let captured := m.captured name
  (f, { m with
    store := (m.store.addRoot captured).define m.global name f
    nextSerial := m.nextSerial + 1 })

/-- Installs an operation of the host as a builtin, in place of an earlier one of its name. -/
def register (m : Machine) (d : Definition) : Machine :=
  let f := Value.native (d.header m.nextSerial) (.host m.hostOperations.size)
  { m with
    builtins := m.builtins.insert d.name f
    hostOperations := m.hostOperations.push d.run
    nextSerial := m.nextSerial + 1 }

def operation (m : Machine) : Native → Operation
  | .builtin b => b.definition.run
  | .host slot => m.hostOperations[slot]?.getD fun _ => Op.answer .nil

end Machine
end MiniLisp
