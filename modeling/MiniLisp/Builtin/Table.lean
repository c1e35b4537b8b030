import MiniLisp.Operation.Adapter
import MiniLisp.Reader.Form
import MiniLisp.Text.Casing

/-! The builtin functions: what each declares and what it does. Arithmetic and logic over any number of
operands fold from the first one. -/

namespace MiniLisp.Builtin

def foldNumbers (f : Float → Float → Float) : Operation :=
  adaptRest [.one .number] .number fun x xs => Op.answer (.number (xs.foldl f x))

def foldBools (f : Bool → Bool → Bool) : Operation :=
  adaptRest [.one .bool] .bool fun b bs => Op.answer (.bool (bs.foldl f b))

def ofNumbers (f : Float → Float → Float) : Operation :=
  adapt [.one .number, .one .number] fun x y => Op.answer (.number (f x y))

def compareNumbers (f : Float → Float → Bool) : Operation :=
  adapt [.one .number, .one .number] fun x y => Op.answer (.bool (f x y))

def ofText (f : String → Value) : Operation := adapt [.one .text] fun s => Op.answer (f s)

def ofValue (f : Value → String) : Operation := adapt [.one .any] fun v => Op.answer (.string (f v))

/-- A random integer from `least` up to, not including, `bound`. -/
def randomBetween (least bound : Float) : Op Value := do
  let r ← Op.roll
  return .number (r * (bound - least) + least).floor

/-- A text repeated; a count with a fraction is truncated, and no number counts as zero. -/
def repeated (s : String) (times : Float) : Op Value :=
  if Number.isNaN times then pure (.string "")
  else if times < 0 || Number.isInfinite times then throw (.repeatCount times)
  else
    let count := times.toUInt64.toNat
    if s.utf8ByteSize * count ≤ maxTextBytes then pure (.string (Text.copies s count))
    else throw (.repeatSize times)

def printed (ending : String) (s : String) : Op Value := do
  Op.write (s ++ ending)
  return .nil

/-- The first form of a text; a text that has none, or is malformed, reads as nil. -/
def firstForm (s : String) : Value :=
  match readForms {} s with
  | .ok (v :: _) => v
  | _ => .nil

def docOf : Value → Op Value
  | .native h _ => pure (.string h.doc)
  | .lambda h _ _ => pure (.string h.doc)
  | .special f => pure (.string f.doc)
  | v => throw (.undocumented v)

def operation : Builtin → Operation
  | add => foldNumbers (· + ·)
  | subtract => foldNumbers (· - ·)
  | multiply => foldNumbers (· * ·)
  | divide => foldNumbers (· / ·)
  | floorDivide => ofNumbers fun x y => (x / y).floor
  | remainder => ofNumbers Number.remainder
  | power => ofNumbers Float.pow
  | equal => compareNumbers (· == ·)
  | greater => compareNumbers fun x y => y < x
  | less => compareNumbers fun x y => x < y
  | greaterEqual => compareNumbers fun x y => y ≤ x
  | lessEqual => compareNumbers fun x y => x ≤ y
  | randomInteger => adapt [.one .number, .one .number] randomBetween
  | conjunction => foldBools (· && ·)
  | disjunction => foldBools (· || ·)
  | negation => adapt [.one .bool] fun b => Op.answer (.bool !b)
  | concat => adaptRest [] .text fun parts => Op.answer (.string (String.join parts))
  | lower => ofText fun s => .string (Text.lower s)
  | upper => ofText fun s => .string (Text.upper s)
  | repetition => adapt [.one .text, .one .number] repeated
  | length => ofText fun s => .number (Float.ofNat s.length)
  | print => adapt [.one .text] (printed "\n")
  | printLine => adapt [.one .text] (printed "\n\n")
  | read => ofText firstForm
  | source => ofValue Value.code
  | typeName => ofValue fun v => v.ty.name
  | documentation => adapt [.one .any] docOf

def doc : Builtin → String
  | add => "Performs addition of arbitrary amount of number arguments"
  | subtract => "Performs subtraction of arbitrary amount of number arguments"
  | multiply => "Performs multiplication of arbitrary amount of number arguments"
  | divide => "Performs division of arbitrary amount of number arguments"
  | floorDivide =>
    "Performs integer division of two numeric values (truncating any decimals from the result)"
  | remainder => "Returns the result of x modulo y"
  | power => "Raises the base value to the power specified"
  | equal => "Compares the first operand to the second, returning true if they are equal"
  | greater => "Compares the first operand to the second, returning true if the first is greater"
  | less => "Compares the first operand to the second, returning true if the first is lesser"
  | greaterEqual =>
    "Compares the first operand to the second, returning true if the first is greater OR equal"
  | lessEqual =>
    "Compares the first operand to the second, returning true if the first is lesser OR equal"
  | randomInteger => "Generates a pseudo-random integer in the range [min, max)"
  | conjunction => "Performs a logical and on all provided operands"
  | disjunction => "Performs a logical or on all provided operands"
  | negation => "Returns the logical negation of its operand"
  | concat => "Concats an arbitrary number of strings together"
  | lower => "Converts a string to lowercase"
  | upper => "Converts a string to uppercase"
  | repetition => "Repeats a string the specified number of times"
  | length => "Returns the length of a string"
  | print => "Outputs the provided string to the standard output"
  | printLine =>
    "Outputs the provided string to the standard output, appending a new line at the end"
  | read => "Parses a string as code"
  | source => "Returns the source code form of a value as a string"
  | typeName => "Returns the name of the type of a value"
  | documentation => "Returns the documentation string of a function"

def params : Builtin → List Param
  | add | subtract | multiply | divide => [⟨"operands", .number, true⟩]
  | floorDivide | remainder => [⟨"x", .number, false⟩, ⟨"y", .number, false⟩]
  | power => [⟨"base", .number, false⟩, ⟨"power", .number, false⟩]
  | equal | greater | less | greaterEqual | lessEqual =>
    [⟨"first", .number, false⟩, ⟨"second", .number, false⟩]
  | randomInteger => [⟨"min", .number, false⟩, ⟨"max", .number, false⟩]
  | conjunction | disjunction => [⟨"operands", .bool, true⟩]
  | negation => [⟨"operand", .bool, false⟩]
  | concat => [⟨"operands", .string, true⟩]
  | lower | upper | length | print | printLine | read => [⟨"string", .string, false⟩]
  | repetition => [⟨"string", .string, false⟩, ⟨"times", .number, false⟩]
  | source | typeName => [⟨"value", .any, false⟩]
  | documentation => [⟨"function", .function, false⟩]

def returns : Builtin → Ty
  | add | subtract | multiply | divide | floorDivide | remainder | power | randomInteger
  | length => .number
  | equal | greater | less | greaterEqual | lessEqual | conjunction | disjunction | negation => .bool
  | concat | lower | upper | repetition | source | typeName | documentation => .string
  | print | printLine => .nil
  | read => .any

/-- The least number of operands of the builtins that take any number of them. -/
def leastOperands? : Builtin → Option Nat
  | add | subtract | multiply | divide | conjunction | disjunction => some 1
  | concat => some 0
  | _ => none

def definition (b : Builtin) : Definition :=
  match b.leastOperands? with
  | some n => .variadic b.name b.doc b.params b.returns (.atLeast n) b.operation
  | none => .fixed b.name b.doc b.params b.returns b.operation

def toValue (b : Builtin) (serial : Nat) : Value := .native (b.definition.header serial) (.builtin b)

end MiniLisp.Builtin
