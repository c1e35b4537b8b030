/-! The builtin functions and the names they are bound to. -/

namespace MiniLisp

inductive Builtin where
  | add | subtract | multiply | divide | floorDivide | remainder | power
  | equal | greater | less | greaterEqual | lessEqual
  | randomInteger
  | conjunction | disjunction | negation
  | concat | lower | upper | repetition | length
  | print | printLine
  | read | source | typeName | documentation
deriving DecidableEq, Inhabited

namespace Builtin

def name : Builtin → String
  | add => "+"
  | subtract => "-"
  | multiply => "*"
  | divide => "/"
  | floorDivide => "//"
  | remainder => "%"
  | power => "pow"
  | equal => "="
  | greater => ">"
  | less => "<"
  | greaterEqual => ">="
  | lessEqual => "<="
  | randomInteger => "rand-int"
  | conjunction => "and"
  | disjunction => "or"
  | negation => "not"
  | concat => "str-cat"
  | lower => "str-lower"
  | upper => "str-upper"
  | repetition => "str-repeat"
  | length => "str-len"
  | print => "io-print"
  | printLine => "io-println"
  | read => "read"
  | source => "print"
  | typeName => "type-of"
  | documentation => "doc"

def all : List Builtin :=
  [add, subtract, multiply, divide, floorDivide, remainder, power,
   equal, greater, less, greaterEqual, lessEqual, randomInteger,
   conjunction, disjunction, negation, concat, lower, upper, repetition, length,
   print, printLine, read, source, typeName, documentation]

def ofName? (name : String) : Option Builtin := all.find? (·.name == name)

end Builtin
end MiniLisp
