/-! Doubles by rank. The doubles of one sign, taken in order of magnitude, are numbered by their low
63 bits: rank 0 is zero, `infinityRank` is infinity, and the ranks above it are not numbers. A finite
rank stands for `significand · 2 ^ power`. `nearestRank` is the rank nearest to a fraction, and of two
equally near the even one. -/

namespace MiniLisp.Number

abbrev twoTo (n : Nat) : Nat := Nat.pow 2 n

def infinityRank : Nat := 2047 * twoTo 52

def rank (x : Float) : Nat := x.toBits.toNat % twoTo 63

def isNegative (x : Float) : Bool := twoTo 63 ≤ x.toBits.toNat

def ofRank (negative : Bool) (k : Nat) : Float :=
  Float.ofBits (UInt64.ofNat (if negative then twoTo 63 + k else k))

def isNaN (x : Float) : Bool := infinityRank < rank x

def isInfinite (x : Float) : Bool := rank x == infinityRank

def isZero (x : Float) : Bool := rank x == 0

def infinity (negative : Bool) : Float := ofRank negative infinityRank

def notANumber : Float := ofRank false (infinityRank + twoTo 51)

def significand (k : Nat) : Nat := if k < twoTo 52 then k else k % twoTo 52 + twoTo 52

def power (k : Nat) : Int := if k < twoTo 52 then -1074 else (k / twoTo 52 : Nat) - 1075

/-- `n · 2 ^ e` as a fraction. -/
def dyadic (n : Nat) (e : Int) : Nat × Nat :=
  if 0 ≤ e then (n <<< e.toNat, 1) else (n, 1 <<< (-e).toNat)

/-- The fraction that a finite rank stands for. -/
def magnitude (k : Nat) : Nat × Nat := dyadic (significand k) (power k)

/-- The quotient rounded to the nearest integer, a half to the even one. -/
def roundDiv (n d : Nat) : Nat :=
  let q := n / d
  let r := 2 * (n % d)
  if r < d then q else if d < r then q + 1 else q + q % 2

/-- The exponent of the leading binary digit of `n / d`. -/
def leadingExponent (n d : Nat) : Int :=
  let e : Int := (n.log2 : Int) - d.log2
  let (a, b) := dyadic 1 e
  if d * a ≤ n * b then e else e - 1

def nearestRank (n d : Nat) : Nat :=
  if n = 0 then 0
  else
    let q := max (leadingExponent n d - 52) (-1074)
    let (a, b) := dyadic 1 q
    min ((q + 1074).toNat * twoTo 52 + roundDiv (n * b) (d * a)) infinityRank

/-- The remainder of a division that truncates: it has the sign of `x`, and is exact. -/
def remainder (x y : Float) : Float :=
  if isNaN x || isNaN y || isInfinite x || isZero y then notANumber
  else if isInfinite y then x
  else
    let e := min (power (rank x)) (power (rank y))
    let scaled (k : Nat) : Nat := significand k <<< (power k - e).toNat
    let (n, d) := dyadic (scaled (rank x) % scaled (rank y)) e
    ofRank (isNegative x) (nearestRank n d)

end MiniLisp.Number
