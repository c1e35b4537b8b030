import MiniLisp.Number.Double

/-! Decimals `digits · 10 ^ exponent` and doubles. `decimalRank` reads a decimal as the nearest
double. `shortest` writes a finite rank with the fewest digits that read back as it: on each decimal
grid, from the coarsest to 17 digits, the two neighbours of the value are tried, of two that read
back the nearer wins, and the upper one when both are equally near. If no grid has one, the value is
written exactly. -/

namespace MiniLisp.Number

structure Decimal where
  digits : Nat
  exponent : Int

abbrev tenTo (n : Nat) : Nat := Nat.pow 10 n

def Decimal.fraction (x : Decimal) : Nat × Nat :=
  if 0 ≤ x.exponent then (x.digits * tenTo x.exponent.toNat, 1)
  else (x.digits, tenTo (-x.exponent).toNat)

/-- The rank nearest to a decimal. Exponents that leave the range of doubles on either side are
settled without computing their power of ten: `10 ^ 310` is past the largest double, and
`10 ^ e ≤ 2 ^ (3 · e)` for the negative ones. -/
def decimalRank (x : Decimal) : Nat :=
  if x.digits = 0 then 0
  else if 310 < x.exponent then infinityRank
  else if x.digits.log2 + 1 + 3 * x.exponent < -1100 then 0
  else nearestRank x.fraction.1 x.fraction.2

/-- The exponent of the leading decimal digit of `n / d`. -/
def leadingDecimal (n d : Nat) : Int :=
  if d ≤ n then (Nat.toDigits 10 (n / d)).length - 1 else -(Nat.toDigits 10 ((d - 1) / n)).length

/-- The neighbour of `n / d` on the grid of multiples of `10 ^ e` that reads back as rank `k`. -/
def onGrid (k n d : Nat) (e : Int) : Option Decimal :=
  let (a, b) := Decimal.fraction ⟨1, e⟩
  let below := n * b / (d * a)
  let twice := 2 * (n * b % (d * a))
  let lower : Decimal := ⟨below, e⟩
  let upper : Decimal := ⟨below + 1, e⟩
  match decimalRank lower == k, decimalRank upper == k with
  | true, true => some (if twice < d * a then lower else upper)
  | true, false => some lower
  | false, true => some upper
  | false, false => none

/-- The value of a finite rank, to its last digit. -/
def exactDecimal (k : Nat) : Decimal :=
  if 0 ≤ power k then ⟨significand k <<< (power k).toNat, 0⟩
  else ⟨significand k * Nat.pow 5 (-power k).toNat, power k⟩

def shortest (k : Nat) : Decimal :=
  let (n, d) := magnitude k
  let top := leadingDecimal n d + 1
  ((List.range 18).findSome? fun (i : Nat) => onGrid k n d (top - i)).getD (exactDecimal k)

end MiniLisp.Number
