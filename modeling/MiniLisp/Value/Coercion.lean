import MiniLisp.Error

/-! Conversion toward a declared type. A value of the right type, or any value for `any`, is left as
it is. Numbers, texts and truth values convert into each other, everything else but a symbol or a
keyword converts to `true`, to no number and to the empty text, and no other type is converted to. -/

namespace MiniLisp.Value

def truth : Value → Bool
  | number x => 0 < x
  | string s => !s.isEmpty
  | _ => true

def numeric : Value → Float
  | string s => Number.read s.toList
  | _ => Number.notANumber

def textual : Value → String
  | bool b => Text.ofBool b
  | number x => Number.text x
  | _ => ""

def isName : Value → Bool
  | symbol _ | keyword _ => true
  | _ => false

def coerce (target : Ty) (v : Value) : Except Cause Value :=
  if target = .any ∨ target = v.ty then .ok v
  else if v.isName then .error (.unconvertible v target)
  else
    match target with
    | .bool => .ok (bool v.truth)
    | .number => .ok (number v.numeric)
    | .string => .ok (string v.textual)
    | _ => .error (.wrongType v target)

end MiniLisp.Value
