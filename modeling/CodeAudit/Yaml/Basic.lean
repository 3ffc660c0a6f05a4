import CodeAudit.Text.Basic

/-!
# YAML documents

A document is a tree of scalars, lists and maps.  What a scalar means is left open until a number
or a text is asked for; all that is kept besides its text is whether it stood without quotes,
because only then can it be a number.
-/

namespace CodeAudit

inductive Yaml where
  /-- A place where a value could stand and none does. -/
  | empty
  | scalar (plain : Bool) (text : List Char)
  | list (items : List Yaml)
  | map (entries : List (Yaml × Yaml))
  deriving Inhabited

namespace Yaml

/-! ## Scalars as texts and numbers -/

/-- A scalar as a text, whatever it looks like. -/
def text? : Yaml → Option String
  | .empty => some ""
  | .scalar _ text => some (String.ofList text)
  | _ => none

/-- The value of a digit in a base. -/
def digit? (base : Nat) (c : Char) : Option Nat :=
  let value? :=
    if Text.isAsciiDigit c then some (c.toNat - '0'.toNat)
    else if 'a' ≤ c && c ≤ 'f' then some (c.toNat - 'a'.toNat + 10)
    else if 'A' ≤ c && c ≤ 'F' then some (c.toNat - 'A'.toNat + 10)
    else none
  value?.filter (· < base)

/-- The number that digits spell; there has to be one at least. -/
def digits? (base : Nat) : List Char → Option Nat
  | [] => none
  | cs => cs.foldlM (fun n c => (digit? base c).map (n * base + ·)) 0

/-- Whether digits begin with a zero that does not count; such a scalar is no number. -/
def hasLeadingZero (cs : List Char) : Bool :=
  1 < cs.length && cs.head? == some '0' && cs.all Text.isAsciiDigit

/-- A scalar as a whole number that is not negative, in base ten, or in another with a mark in
front. -/
def natural? : Yaml → Option Nat
  | .scalar true text =>
    let unsigned := match text with
      | '+' :: rest => rest
      | _ => text
    let marked := match unsigned with
      | '0' :: 'x' :: rest => digits? 16 rest
      | '0' :: 'o' :: rest => digits? 8 rest
      | '0' :: 'b' :: rest => digits? 2 rest
      | _ => none
    let value := marked.or (if hasLeadingZero unsigned then none else digits? 10 unsigned)
    value.filter (· < Nat.pow 2 64)
  | _ => none

/-- The digits before and after the point, and what follows them. -/
def mantissa (cs : List Char) : List Char × List Char × List Char :=
  let whole := cs.takeWhile Text.isAsciiDigit
  match cs.dropWhile Text.isAsciiDigit with
  | '.' :: rest => (whole, rest.takeWhile Text.isAsciiDigit, rest.dropWhile Text.isAsciiDigit)
  | rest => (whole, [], rest)

/-- A power of ten: none, or the letter e and a whole number. -/
def exponent? : List Char → Option Int
  | [] => some 0
  | c :: rest =>
    if c = 'e' ∨ c = 'E' then
      match rest with
      | '-' :: digits => (digits? 10 digits).map fun n => -Int.ofNat n
      | '+' :: digits => (digits? 10 digits).map Int.ofNat
      | digits => (digits? 10 digits).map Int.ofNat
    else none

/-- A decimal without a sign. -/
def decimal? (cs : List Char) : Option Float :=
  let (whole, fraction, rest) := mantissa cs
  (digits? 10 (whole ++ fraction)).bind fun m =>
    (exponent? rest).map fun e =>
      let shift := e - Int.ofNat fraction.length
      -- beyond these powers every nonzero decimal is too great, or nothing
      if m = 0 then 0.0
      else if shift < 0 then Float.ofScientific m true (min shift.natAbs (m.log2 + 400))
      else Float.ofScientific m false (min shift.natAbs 400)

/-- A scalar as a number. -/
def number? : Yaml → Option Float
  | .scalar true text =>
    let unsigned := match text with
      | '+' :: rest => if rest.head? == some '+' || rest.head? == some '-' then none else some rest
      | _ => some text
    unsigned.bind fun unsigned =>
      if unsigned ∈ [".inf".toList, ".Inf".toList, ".INF".toList] then some (1.0 / 0.0)
      else if text ∈ ["-.inf".toList, "-.Inf".toList, "-.INF".toList] then some (-1.0 / 0.0)
      else if text ∈ [".nan".toList, ".NaN".toList, ".NAN".toList] then some (0.0 / 0.0)
      else
        let value := match unsigned with
          | '-' :: rest => (decimal? rest).map fun x => -x
          | _ => decimal? unsigned
        value.filter fun x => x.isFinite
  | _ => none

end Yaml

end CodeAudit
