import MiniLisp.Builtin.Name
import MiniLisp.Position
import MiniLisp.Signature
import MiniLisp.SpecialForm

/-! Values, which are programs too: the reader makes them and the evaluator takes and returns them.
A function carries a serial number that no other function of its interpreter has, so that equality of
headers is identity. Positions of lists serve error messages only and take no part in equality. -/

namespace MiniLisp

structure Header where
  serial : Nat
  name : String
  doc : String
  params : List Param
  returns : Ty
deriving DecidableEq, Inhabited

/-- The number of a scope in the store that holds it. -/
structure ScopeId where
  index : Nat
deriving DecidableEq, Inhabited

/-- The operation behind a native function: a builtin, or one that the host has registered. -/
inductive Native where
  | builtin (b : Builtin)
  | host (slot : Nat)
deriving DecidableEq, Inhabited

inductive Value where
  | nil
  | bool (b : Bool)
  | number (x : Float)
  | string (s : String)
  | symbol (name : String)
  | keyword (name : String)
  /-- A quoted list is data, any other is a call; `opened` is where it starts in its source. -/
  | list (items : List Value) (quoted : Bool) (opened : Option Position)
  | native (header : Header) (operation : Native)
  /-- A function of the program, run in the scope that its definition captured, if it has one. -/
  | lambda (header : Header) (body : Value) (captured : Option ScopeId)
  | special (form : SpecialForm)
deriving Inhabited

namespace Value

def ty : Value → Ty
  | nil => .nil
  | bool _ => .bool
  | number _ => .number
  | string _ => .string
  | symbol _ => .symbol
  | keyword _ => .keyword
  | list .. => .list
  | native .. => .function
  | lambda .. => .function
  | special _ => .function

def isNil : Value → Bool
  | nil => true
  | _ => false

/-- A quoted list without a position. -/
def quote (items : List Value) : Value := list items true none

mutual

def beq : Value → Value → Bool
  | nil, nil => true
  | bool a, bool b => a == b
  | number x, number y => x == y
  | string s, string t => s == t
  | symbol m, symbol n => m == n
  | keyword m, keyword n => m == n
  | list xs p _, list ys q _ => p == q && beqItems xs ys
  | native h _, native k _ => h == k
  | lambda h _ _, lambda k _ _ => h == k
  | special f, special g => f == g
  | _, _ => false

def beqItems : List Value → List Value → Bool
  | [], [] => true
  | x :: xs, y :: ys => beq x y && beqItems xs ys
  | _, _ => false

end

instance : BEq Value := ⟨beq⟩

mutual

/-- Equality down to bits and positions, which cannot be derived: values nest in lists. -/
def same : Value → Value → Bool
  | nil, nil => true
  | bool a, bool b => a == b
  | number x, number y => decide (x = y)
  | string s, string t => s == t
  | symbol m, symbol n => m == n
  | keyword m, keyword n => m == n
  | list xs p o, list ys q r => p == q && o == r && sameItems xs ys
  | native h n, native k o => h == k && n == o
  | lambda h b c, lambda k d e => h == k && same b d && c == e
  | special f, special g => f == g
  | _, _ => false

def sameItems : List Value → List Value → Bool
  | [], [] => true
  | x :: xs, y :: ys => same x y && sameItems xs ys
  | _, _ => false

end

mutual

theorem same_iff : ∀ v w : Value, same v w = true ↔ v = w
  | list xs _ _, w => by
    cases w with
    | list ys q r => simp [same, sameItems_iff xs ys, and_comm, and_left_comm]
    | _ => simp [same]
  | lambda _ b _, w => by
    cases w with
    | lambda k d e => simp [same, same_iff b d, and_assoc]
    | _ => simp [same]
  | nil, w | bool _, w | number _, w | string _, w | symbol _, w | keyword _, w | native _ _, w
  | special _, w => by cases w <;> simp [same]

theorem sameItems_iff : ∀ vs ws : List Value, sameItems vs ws = true ↔ vs = ws
  | [], ws => by cases ws <;> simp [sameItems]
  | v :: vs, ws => by
    cases ws with
    | nil => simp [sameItems]
    | cons w ws => simp [sameItems, same_iff v w, sameItems_iff vs ws]

end

instance : DecidableEq Value := fun v w => decidable_of_iff _ (same_iff v w)

end Value
end MiniLisp
