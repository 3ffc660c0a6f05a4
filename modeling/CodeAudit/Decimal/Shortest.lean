import CodeAudit.Decimal.Basic

/-!
# The fewest digits that read back

Around a binary number lies the interval of reals that are rounded to it; its ends belong to it
exactly when the mantissa is even.  The decimal that stands for the number is one inside the
interval with as few digits as possible, and of those the nearest to the number.

For a given count of digits it is enough to look at the two decimals next to the number, one
below and one above: **if any decimal of that length lies in the interval, one of these two
does.**
-/

namespace CodeAudit.Decimal

/-- The interval of a number: its ends, and whether they belong to it. -/
structure Interval where
  low : Ratio
  high : Ratio
  closed : Bool

/-- The interval of `m · 2 ^ q`.  At a power of two the numbers below are twice as dense. -/
def Interval.around (m : Nat) (q : Int) : Interval :=
  let below := if m = Nat.pow 2 52 ∧ leastExponent < q then 4 * m - 1 else 4 * m - 2
  ⟨.scaled below (q - 2), .scaled (4 * m + 2) (q - 2), m % 2 == 0⟩

/-- Whether the whole number `n` lies in the interval, with both ends taken times `10 ^ k`. -/
def Interval.contains (i : Interval) (k : Int) (n : Nat) : Bool :=
  let low := i.low.shift k
  let high := i.high.shift k
  if i.closed then low.num ≤ n * low.den && n * high.den ≤ high.num
  else low.num < n * low.den && n * high.den < high.num

/-- The number of places before the decimal point of a positive quotient; zero or less if it is
below one. -/
def pointPlace (r : Ratio) : Int :=
  if r.den ≤ r.num then digitCount (r.num / r.den)
  else
    let k : Int := 1 - digitCount (r.den / r.num)
    -- one place more when the quotient is itself a power of ten
    if (r.shift (-k)).num < (r.shift (-k)).den then k else k + 1

/-- The best decimal on the grid of multiples of `10 ^ (-k)`, if one lies in the interval. -/
def onGrid (value : Ratio) (i : Interval) (k : Int) : Option Nat :=
  let v := value.shift k
  let below := v.num / v.den
  let above := below + 1
  match i.contains k below && below != 0, i.contains k above with
  | true, true => if 2 * (v.num % v.den) < v.den then some below else some above
  | true, false => some below
  | false, true => some above
  | false, false => none

/-- The first grid with a decimal in the interval, from `n` digits on. -/
def firstGrid (value : Ratio) (i : Interval) (place : Int) : Nat → Nat → Nat × Int
  | 0, n => (((value.shift (n - place)).num / (value.shift (n - place)).den), place - n)
  | left + 1, n =>
    match onGrid value i (n - place) with
    | some d => (d, place - n)
    | none => firstGrid value i place left (n + 1)

/-- Drops zeros at the end of the digits, at most `limit` of them. -/
def dropZeros : Nat → Nat → Int → Nat × Int
  | 0, d, e => (d, e)
  | limit + 1, d, e => if d ≠ 0 ∧ d % 10 = 0 then dropZeros limit (d / 10) (e + 1) else (d, e)

/-- The shortest decimal of a number. -/
def shortest (x : Float) : Written :=
  match Binary.ofFloat x with
  | .nan => .nan
  | .infinite negative => .infinite negative
  | .finite negative m q =>
    if m = 0 then .finite negative 0 0
    else
      let value := Ratio.scaled m q
      let (d, e) := firstGrid value (.around m q) (pointPlace value) 17 1
      let (d, e) := dropZeros 20 d e
      .finite negative d e

end CodeAudit.Decimal
