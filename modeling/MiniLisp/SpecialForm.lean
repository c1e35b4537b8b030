/-! The special forms: operators that receive their operands unevaluated. -/

namespace MiniLisp

inductive SpecialForm where
  | sequence | conditional | choice | evaluation | binding | definition | functionDefinition
deriving DecidableEq, Inhabited

namespace SpecialForm

def name : SpecialForm → String
  | sequence => "do"
  | conditional => "if"
  | choice => "case"
  | evaluation => "eval"
  | binding => "let"
  | definition => "def"
  | functionDefinition => "defun"

def doc : SpecialForm → String
  | sequence => "Evaluates each expression in order and returns the value of the last one"
  | conditional =>
    "Evaluates the then branch when the bool condition is true, otherwise the optional else branch"
  | choice =>
    "Returns the result of the first (condition result) branch whose condition is true, falling back to the :else branch"
  | evaluation => "Evaluates its argument, then evaluates the resulting list as code"
  | binding => "Binds a (symbol value) pair in a new scope and evaluates the body in it"
  | definition => "Binds a symbol to a value in the global environment"
  | functionDefinition => "Defines a named function in the global environment"

def all : List SpecialForm :=
  [sequence, conditional, choice, evaluation, binding, definition, functionDefinition]

def ofName? (name : String) : Option SpecialForm := all.find? (·.name == name)

end SpecialForm
end MiniLisp
