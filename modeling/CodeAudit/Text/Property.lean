import CodeAudit.Text.Table

/-!
# Character properties

What counts as a blank, a word character, a digit or an upper case letter, for every character
and not only for ASCII.  A property is a short rule on ASCII joined to a table above it; a table
is sorted, so a search in it stops at the first range that begins too late.

`Char.isWhitespace`, `Char.isAlphanum` and their kin know ASCII only and are not used here.
-/

namespace CodeAudit.Text

/-! ## 1. Membership in a table -/

/-- Whether `n` lies in one of the ranges, which are in increasing order. -/
def inRanges (n : Nat) : List (Nat × Nat) → Bool
  | [] => false
  | (lo, hi) :: rest => if n < lo then false else n ≤ hi || inRanges n rest

/-- Whether `n` lies on one of the stepped runs, which are in increasing order. -/
def inRuns (n : Nat) : List (Nat × Nat × Nat) → Bool
  | [] => false
  | (lo, hi, step) :: rest =>
    if n < lo then false else (n ≤ hi && (n - lo) % step == 0) || inRuns n rest

/-- The code point that the first run containing `n` sends it to. -/
def shifted (n : Nat) : List (Nat × Nat × Nat × Int) → Option Nat
  | [] => none
  | (lo, hi, step, distance) :: rest =>
    if n < lo then none
    else if n ≤ hi && (n - lo) % step == 0 then some (Int.ofNat n + distance).toNat
    else shifted n rest

/-- A letter of the English alphabet, either case. -/
def isAsciiLetter (c : Char) : Bool := ('a' ≤ c && c ≤ 'z') || ('A' ≤ c && c ≤ 'Z')

/-- One of `0` to `9`. -/
def isAsciiDigit (c : Char) : Bool := '0' ≤ c && c ≤ '9'

/-! ## 2. The properties -/

/-- A blank: what trimming removes and what `\s` matches. -/
def isSpace (c : Char) : Bool :=
  let n := c.toNat
  (9 ≤ n && n ≤ 13) || n == 32 || n == 0x85 || n == 0xA0 || n == 0x1680 ||
    (0x2000 ≤ n && n ≤ 0x200A) || n == 0x2028 || n == 0x2029 || n == 0x202F || n == 0x205F ||
    n == 0x3000

/-- A character of a word, for `\w` and `\b`.  **The underscore is one; the dollar sign is
not**, so `\b` does not hold between a dollar sign and a blank. -/
def isWord (c : Char) : Bool :=
  if c.toNat < 0x80 then isAsciiLetter c || isAsciiDigit c || c == '_'
  else inRanges c.toNat Table.word

/-- A decimal digit of any script, for `\d`. -/
def isDigit (c : Char) : Bool :=
  if c.toNat < 0x80 then isAsciiDigit c else inRanges c.toNat Table.digit

/-- An upper case letter. -/
def isUpper (c : Char) : Bool :=
  if c.toNat < 0x80 then 'A' ≤ c && c ≤ 'Z' else inRuns c.toNat Table.upper

/-- A character that has a case. -/
def isCased (c : Char) : Bool :=
  if c.toNat < 0x80 then isAsciiLetter c else inRanges c.toNat Table.cased

/-- A character that is passed over when the case around it is looked at. -/
def isCaseIgnorable (c : Char) : Bool :=
  if c.toNat < 0x80 then c == '\'' || c == '.' || c == ':' || c == '^' || c.toNat == 0x60
  else inRanges c.toNat Table.caseIgnorable

/-- A character that joins the one before it. -/
def isGraphemeExtend (c : Char) : Bool :=
  c.toNat ≥ 0x80 && inRanges c.toNat Table.graphemeExtend

/-- A character that is shown as itself in quoted text. -/
def isPrintable (c : Char) : Bool :=
  if c.toNat < 0x80 then 0x20 ≤ c.toNat && c.toNat < 0x7F
  else !inRanges c.toNat Table.unprintable

end CodeAudit.Text
