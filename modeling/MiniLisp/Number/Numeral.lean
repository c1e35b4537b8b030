import MiniLisp.Number.Decimal
import MiniLisp.Text.Blank

/-! Numbers as text. Writing is positional, never with an exponent, and drops the sign of zero.
Reading takes the longest prefix of the form `sign? (Infinity | digits point? digits? exponent?)` with
at least one digit before the exponent, and an exponent only if it has a digit of its own; a text
without such a prefix is not a number. -/

namespace MiniLisp.Number

def Decimal.positional (x : Decimal) : List Char :=
  let ds := Nat.toDigits 10 x.digits
  if 0 ≤ x.exponent then ds ++ List.replicate x.exponent.toNat '0'
  else
    let places := (-x.exponent).toNat
    if places < ds.length then ds.take (ds.length - places) ++ '.' :: ds.drop (ds.length - places)
    else '0' :: '.' :: List.replicate (places - ds.length) '0' ++ ds

/-- The digits of a finite number other than zero, with its sign. -/
def finiteText (x : Float) : String :=
  let ds := (shortest (rank x)).positional
  String.ofList (if isNegative x then '-' :: ds else ds)

def text (x : Float) : String :=
  if isNaN x then "NaN"
  else if isInfinite x then if isNegative x then "-Infinity" else "Infinity"
  else if isZero x then "0"
  else finiteText x

/-- Spelling of the infinities in the complaint about a repeat count. -/
def countText (x : Float) : String :=
  if isInfinite x then if isNegative x then "-inf" else "inf" else text x

def pushDigit (n : Nat) (c : Char) : Nat := 10 * n + (c.toNat - '0'.toNat)

/-- The value of a row of digits. A long row is cut in two, so that the work does not grow with the
square of its length; `digitsValue_eq_foldl` says that this makes no difference. -/
def digitsValue (ds : List Char) : Nat :=
  if ds.length < 64 then ds.foldl pushDigit 0
  else
    let low := ds.drop (ds.length / 2)
    digitsValue (ds.take (ds.length / 2)) * tenTo low.length + digitsValue low
termination_by ds.length
decreasing_by
  · rw [List.length_take]; omega
  · rw [List.length_drop]; omega

theorem foldl_pushDigit (ds : List Char) (n : Nat) :
    ds.foldl pushDigit n = n * tenTo ds.length + ds.foldl pushDigit 0 := by
  induction ds generalizing n with
  | nil => exact (Nat.mul_one n).symm
  | cons c ds ih =>
    have step (m : Nat) : pushDigit m c = 10 * m + pushDigit 0 c := by simp [pushDigit]
    have power : tenTo (ds.length + 1) = tenTo ds.length * 10 := rfl
    rw [List.foldl_cons, List.foldl_cons, ih (pushDigit n c), ih (pushDigit 0 c), step n,
      List.length_cons, power]
    grind

theorem digitsValue_eq_foldl (ds : List Char) : digitsValue ds = ds.foldl pushDigit 0 := by
  fun_induction digitsValue ds with
  | case1 => rfl
  | case2 ds _ _ high low =>
    rw [high, low, ← foldl_pushDigit, ← List.foldl_append, List.take_append_drop]

def exponentLimit : Nat := 65536

/-- The value of the digits of an exponent. A digit counts only while the value of those before it is
below `exponentLimit`: after the leading zeros at most six count, and `700011` is 70001. -/
def exponentValue (ds : List Char) : Nat :=
  ds.foldl (fun n c => if n < exponentLimit then pushDigit n c else n) 0

def splitSign : List Char → Bool × List Char
  | '-' :: cs => (true, cs)
  | '+' :: cs => (false, cs)
  | cs => (false, cs)

/-- The exponent that `cs` starts with; an incomplete one counts as zero. -/
def exponentOf : List Char → Int
  | c :: cs =>
    if c == 'e' || c == 'E' then
      let (negative, cs) := splitSign cs
      let n : Int := exponentValue (cs.takeWhile Char.isDigit)
      if negative then -n else n
    else 0
  | [] => 0

/-- The digits after a point that `cs` starts with, and what follows them. -/
def fractionOf : List Char → List Char × List Char
  | '.' :: cs => (cs.takeWhile Char.isDigit, cs.dropWhile Char.isDigit)
  | cs => ([], cs)

def readUnsigned (negative : Bool) (cs : List Char) : Float :=
  if "Infinity".toList.isPrefixOf cs then infinity negative
  else
    let whole := cs.takeWhile Char.isDigit
    let (places, rest) := fractionOf (cs.dropWhile Char.isDigit)
    if whole.isEmpty && places.isEmpty then notANumber
    else
      ofRank negative
        (decimalRank ⟨digitsValue (whole ++ places), exponentOf rest - places.length⟩)

/-- The number that a text starts with, after white space. -/
def read (cs : List Char) : Float :=
  let (negative, cs) := splitSign (Text.trimLeft cs)
  readUnsigned negative cs

end MiniLisp.Number
