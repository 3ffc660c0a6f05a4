import CodeAudit.Decimal.Style
import CodeAudit.Text.Basic

/-!
# JSON values and their text

Reports are written as JSON.  The fields of an object keep the order in which they are given, and
the text is laid out with two blanks per level, or on one line.
-/

namespace CodeAudit

inductive Json where
  | null
  | bool (b : Bool)
  | natural (n : Nat)
  | number (x : Float)
  | string (s : String)
  | list (items : List Json)
  | object (fields : List (String × Json))
  deriving Inhabited

namespace Json

/-- A value or null. -/
def ofOption {α : Type} (f : α → Json) : Option α → Json
  | none => null
  | some a => f a

/-- The digits of a code point below 256, two of them. -/
def twoHex (n : Nat) : List Char :=
  [Nat.digitChar (n / 16), Nat.digitChar (n % 16)]

/-- One character inside a string: quotes, backslashes and control characters are escaped. -/
def escapeChar (c : Char) : List Char :=
  if c = '"' then ['\\', '"']
  else if c = '\\' then ['\\', '\\']
  else if c = '\n' then ['\\', 'n']
  else if c = '\r' then ['\\', 'r']
  else if c = '\t' then ['\\', 't']
  else if c.toNat = 8 then ['\\', 'b']
  else if c.toNat = 12 then ['\\', 'f']
  else if c.toNat < 32 then ['\\', 'u', '0', '0'] ++ twoHex c.toNat
  else [c]

/-- A string in quotes. -/
def quote (s : String) : String := String.ofList ('"' :: s.toList.flatMap escapeChar ++ ['"'])

/-- A number; one that JSON cannot carry is null. -/
def numberText (x : Float) : String :=
  match Decimal.shortest x with
  | .nan | .infinite _ => "null"
  | w => w.text .data

/-- The start of a line at some depth. -/
def newline (depth : Nat) : String := String.ofList ('\n' :: List.replicate (2 * depth) ' ')

mutual

/-- The text over several lines, at some depth. -/
def prettyAt (depth : Nat) : Json → String
  | null => "null"
  | bool b => if b then "true" else "false"
  | natural n => toString n
  | number x => numberText x
  | string s => quote s
  | list [] => "[]"
  | list (item :: items) =>
    "[" ++ newline (depth + 1) ++ prettyAt (depth + 1) item ++ prettyItems depth items
  | object [] => "\x7b\x7d"
  | object ((key, value) :: fields) =>
    "\x7b" ++ newline (depth + 1) ++ quote key ++ ": " ++ prettyAt (depth + 1) value ++
      prettyFields depth fields

/-- The items of a list after the first, and its end. -/
def prettyItems (depth : Nat) : List Json → String
  | [] => newline depth ++ "]"
  | item :: items => "," ++ newline (depth + 1) ++ prettyAt (depth + 1) item ++ prettyItems depth items

/-- The fields of an object after the first, and its end. -/
def prettyFields (depth : Nat) : List (String × Json) → String
  | [] => newline depth ++ "\x7d"
  | (key, value) :: fields =>
    "," ++ newline (depth + 1) ++ quote key ++ ": " ++ prettyAt (depth + 1) value ++
      prettyFields depth fields

end

/-- The text over several lines. -/
def pretty (v : Json) : String := prettyAt 0 v

mutual

/-- The text on one line. -/
def compact : Json → String
  | null => "null"
  | bool b => if b then "true" else "false"
  | natural n => toString n
  | number x => numberText x
  | string s => quote s
  | list [] => "[]"
  | list (item :: items) => "[" ++ compact item ++ compactItems items
  | object [] => "\x7b\x7d"
  | object ((key, value) :: fields) =>
    "\x7b" ++ quote key ++ ":" ++ compact value ++ compactFields fields

def compactItems : List Json → String
  | [] => "]"
  | item :: items => "," ++ compact item ++ compactItems items

def compactFields : List (String × Json) → String
  | [] => "\x7d"
  | (key, value) :: fields => "," ++ quote key ++ ":" ++ compact value ++ compactFields fields

end

end Json

end CodeAudit
