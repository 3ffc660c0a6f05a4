import CodeAudit.Pattern.Basic

/-!
# Building patterns

Words, character classes and the usual repetitions.  Where letter case is to be ignored a
character is first folded: **besides the capital letters, the long s folds to `s` and the Kelvin
sign to `k`**, and no other character folds to an English letter.
-/

namespace CodeAudit.Pattern

/-! ## 1. Letter case -/

/-- The lower case letter that a character is a variant of, or the character itself. -/
def fold (c : Char) : Char :=
  if 'A' ≤ c && c ≤ 'Z' then c.toLower
  else if c = 'ſ' then 's'
  else if c.toNat = 0x212A then 'k'
  else c

/-! ## 2. Single characters -/

/-- The character `c`. -/
def char (c : Char) : Pattern := one (· == c)

/-- One of the characters of a string. -/
def charIn (cs : String) : Pattern := one fun c => cs.toList.contains c

/-- A character that is not in a string. -/
def charNotIn (cs : String) : Pattern := one fun c => !cs.toList.contains c

/-- Any character of the same line. -/
def anyChar : Pattern := one (· != '\n')

def space : Pattern := one Text.isSpace

def wordChar : Pattern := one Text.isWord

def digit : Pattern := one Text.isDigit

/-! ## 3. Words and repetitions -/

/-- The pieces one after another. -/
def chain : List Pattern → Pattern
  | [] => empty
  | [p] => p
  | p :: ps => seq p (chain ps)

/-- The first of the pieces that fits. -/
def oneOf : List Pattern → Pattern
  | [] => one fun _ => false
  | [p] => p
  | p :: ps => alt p (oneOf ps)

/-- The characters of a text, as they stand. -/
def exact (s : List Char) : Pattern := chain (s.map char)

/-- The characters of a word, as they stand. -/
def word (s : String) : Pattern := exact s.toList

/-- The characters of a word written in lower case, in any case. -/
def anyCase (s : String) : Pattern := chain (s.toList.map fun c => one fun d => fold d == c)

/-- One of some words. -/
def words (ws : List String) : Pattern := oneOf (ws.map word)

/-- One of some words, in any case. -/
def wordsAnyCase (ws : List String) : Pattern := oneOf (ws.map anyCase)

/-- Any number of copies. -/
def many (p : Pattern) : Pattern := times 0 none p

/-- One copy or more. -/
def some1 (p : Pattern) : Pattern := times 1 none p

/-- One copy or none. -/
def optional (p : Pattern) : Pattern := times 0 (some 1) p

/-- Blanks, if any. -/
def spaces : Pattern := many space

end CodeAudit.Pattern
