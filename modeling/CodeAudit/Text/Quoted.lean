import CodeAudit.Text.Basic

/-!
# Quoted text

A text between double quotes with its quotes, backslashes and control characters escaped, as
messages show a name that the user wrote.  A character that cannot be seen by itself, because it
is not printable or joins the one before it, is written by its code point.
-/

namespace CodeAudit.Text

/-- A code point in hexadecimal, between braces. -/
def escapeCode (c : Char) : List Char :=
  ['\\', 'u', '\x7b'] ++ Nat.toDigits 16 c.toNat ++ ['\x7d']

/-- One character as it stands between the quotes. -/
def escapeChar (c : Char) : List Char :=
  if c = '"' then ['\\', '"']
  else if c = '\\' then ['\\', '\\']
  else if c = '\n' then ['\\', 'n']
  else if c = '\r' then ['\\', 'r']
  else if c = '\t' then ['\\', 't']
  else if c.toNat = 0 then ['\\', '0']
  else if isGraphemeExtend c || !isPrintable c then escapeCode c
  else [c]

/-- The text in double quotes. -/
def quoted (s : String) : String := String.ofList ('"' :: s.toList.flatMap escapeChar ++ ['"'])

end CodeAudit.Text
