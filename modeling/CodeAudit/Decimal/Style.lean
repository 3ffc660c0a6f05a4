import CodeAudit.Decimal.Shortest

/-!
# How decimals are spelled

The digits of a number are settled by `shortest` or by rounding to a fixed number of places; what
is left is where the point stands, whether a whole number keeps a `.0`, and from when on an
exponent is written.  Those decisions are one record, with one value per kind of output.
-/

namespace CodeAudit.Decimal

/-- Decisions on spelling. -/
structure Style where
  /-- Whether a whole number is written with `.0`. -/
  keepsPoint : Bool
  /-- Whether a number with its point after so many digits is written out in full. -/
  inFull : Int → Bool

/-- Numbers inside messages are always written out in full, whole ones without a point. -/
def Style.message : Style := ⟨false, fun _ => true⟩

/-- Numbers in data keep a point, and take an exponent below `10 ^ (-5)` and from `10 ^ 16` on. -/
def Style.data : Style := ⟨true, fun place => -5 < place && place ≤ 16⟩

def zeros (n : Nat) : List Char := List.replicate n '0'

/-- Digits with the point after the first `place` of them, or after zeros put in front. -/
def placePoint (style : Style) (digits : List Char) (place : Int) : List Char :=
  if place ≤ 0 then ['0', '.'] ++ zeros (-place).toNat ++ digits
  else
    let n := place.toNat
    if digits.length ≤ n then
      digits ++ zeros (n - digits.length) ++ (if style.keepsPoint then ['.', '0'] else [])
    else digits.take n ++ ['.'] ++ digits.drop n

/-- Digits with an exponent: one digit before the point. -/
def withExponent (digits : List Char) (place : Int) : List Char :=
  let lead := match digits with
    | [] => []
    | [d] => [d]
    | d :: rest => d :: '.' :: rest
  lead ++ 'e' :: (toString (place - 1)).toList

/-- The text of a decimal. -/
def Written.text (style : Style) : Written → String
  | .nan => "NaN"
  | .infinite negative => if negative then "-inf" else "inf"
  | .finite negative 0 _ =>
    (if negative then "-" else "") ++ (if style.keepsPoint then "0.0" else "0")
  | .finite negative d e =>
    let digits := Nat.toDigits 10 d
    let place := Int.ofNat digits.length + e
    let body := if style.inFull place then placePoint style digits place else withExponent digits place
    (if negative then "-" else "") ++ String.ofList body

/-- The shortest text of a number. -/
def text (style : Style) (x : Float) : String := (shortest x).text style

/-! ## Fixed places -/

/-- A quotient rounded to a whole number; **a half goes to the even neighbour**. -/
def roundHalfEven (num den : Nat) : Nat :=
  let q := num / den
  let r := num % den
  if 2 * r < den then q else if den < 2 * r then q + 1 else q + q % 2

/-- A number with `places` digits after the point, rounded from its exact value. -/
def fixed (places : Nat) (x : Float) : String :=
  match Binary.ofFloat x with
  | .nan => "NaN"
  | .infinite negative => if negative then "-inf" else "inf"
  | .finite negative m q =>
    let r := (Ratio.scaled m q).shift places
    let digits := Nat.toDigits 10 (roundHalfEven r.num r.den)
    let padded := zeros (places + 1 - digits.length) ++ digits
    let whole := padded.take (padded.length - places)
    let body := if places = 0 then whole else whole ++ ['.'] ++ padded.drop (padded.length - places)
    (if negative then "-" else "") ++ String.ofList body

end CodeAudit.Decimal
