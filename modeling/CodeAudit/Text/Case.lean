import CodeAudit.Text.Basic

/-!
# Lower case

Two characters do not have one lower case letter each.  The dotted capital I becomes two
characters, and the capital sigma depends on its place: **it is written in its final form where a
word ends with it**, that is, after a cased character and not before one, characters without
influence on case being passed over on both sides.
-/

namespace CodeAudit.Text

/-- Whether the next character with an influence on case is a cased one. -/
def casedNext (s : List Char) : Bool :=
  match s.dropWhile isCaseIgnorable with
  | [] => false
  | c :: _ => isCased c

/-- Lower case of one character, where its place plays no part. -/
def lowerChar (c : Char) : List Char :=
  if c.toNat < 0x80 then [c.toLower]
  else if c.toNat = 0x130 then ['i', Char.ofNat 0x307]
  else
    match shifted c.toNat Table.toLower with
    | some n => [Char.ofNat n]
    | none => [c]

/-- Lower case of the text after `before`, which is held in reverse. -/
def lowerAfter (before : List Char) : List Char → List Char
  | [] => []
  | c :: rest =>
    if c = 'Σ' then
      (if casedNext before && !casedNext rest then 'ς' else 'σ') :: lowerAfter (c :: before) rest
    else lowerChar c ++ lowerAfter (c :: before) rest

/-- Lower case of a text. -/
def lower (s : List Char) : List Char := lowerAfter [] s

/-- Lower case of a string. -/
def lowerString (s : String) : String := String.ofList (lower s.toList)

end CodeAudit.Text
