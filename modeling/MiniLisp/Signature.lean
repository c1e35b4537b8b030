import MiniLisp.Text.Basic

/-! What a function declares: the types of its parameters and result, and how many arguments it
takes. -/

namespace MiniLisp

/-- The type of a value, or `any` for a parameter that takes whatever it is given. -/
inductive Ty where
  | any | nil | bool | number | string | symbol | keyword | list | function
deriving DecidableEq, Inhabited

namespace Ty

def name : Ty → String
  | any => "any"
  | nil => "nil"
  | bool => "bool"
  | number => "number"
  | string => "string"
  | symbol => "symbol"
  | keyword => "keyword"
  | list => "list"
  | function => "function"

def title : Ty → String
  | any => "Any"
  | nil => "Nil"
  | bool => "Bool"
  | number => "Number"
  | string => "String"
  | symbol => "Symbol"
  | keyword => "Keyword"
  | list => "List"
  | function => "Function"

end Ty

/-- A declared parameter. One marked `rest` stands last and takes all remaining arguments. -/
structure Param where
  name : String
  ty : Ty
  rest : Bool := false
deriving DecidableEq, Inhabited

def Param.text (p : Param) : String := if p.rest then "..." ++ p.name else p.name

/-- How many arguments are admitted; `between` includes both ends. -/
inductive Arity where
  | exactly (n : Nat)
  | atLeast (n : Nat)
  | between (least most : Nat)
deriving DecidableEq, Inhabited

namespace Arity

def admits : Arity → Nat → Bool
  | exactly n, got => got == n
  | atLeast n, got => n ≤ got
  | between least most, got => least ≤ got && got ≤ most

def text : Arity → String
  | exactly n => Text.ofNat n
  | atLeast n => "at least " ++ Text.ofNat n
  | between least most => Text.ofNat least ++ " to " ++ Text.ofNat most

def diagnostic : Arity → String
  | exactly n => "Exact(" ++ Text.ofNat n ++ ")"
  | atLeast n => "AtLeast(" ++ Text.ofNat n ++ ")"
  | between least most => "Between(" ++ Text.ofNat least ++ ", " ++ Text.ofNat most ++ ")"

end Arity

/-- The arguments that a parameter list takes by itself: one for each fixed parameter, and any number
more if the last one is a rest parameter. -/
def Arity.ofParams (params : List Param) : Arity :=
  match params.getLast? with
  | some p => if p.rest then atLeast (params.length - 1) else exactly params.length
  | none => exactly 0

end MiniLisp
