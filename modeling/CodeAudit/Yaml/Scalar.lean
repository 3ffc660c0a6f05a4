import CodeAudit.Yaml.Basic

/-!
# Scanning YAML

A cursor is a place in a document: the text that is left, its column, and whether the next token
is the first of its line.  This module moves the cursor over blanks and reads the three kinds of
scalars: plain, quoted and block scalars.  A line break inside a scalar becomes a blank, and each
further one a line feed.
-/

namespace CodeAudit.Yaml

structure Cursor where
  rest : List Char
  column : Nat
  /-- Whether no token stands before the next one on its line. -/
  fresh : Bool
  deriving Repr, Inhabited

def isBlank (c : Char) : Bool := c == ' ' || c == '\t'

/-- Whether a token can end here: at a blank, a line break or the end. -/
def endsToken : List Char → Bool
  | [] => true
  | c :: _ => isBlank c || c == '\n'

/-- Whether a line is the mark that begins or ends a document. -/
def isMark : List Char → Bool
  | '-' :: '-' :: '-' :: rest => endsToken rest
  | '.' :: '.' :: '.' :: rest => endsToken rest
  | _ => false

namespace Cursor

def atMark (c : Cursor) : Bool := c.column == 0 && isMark c.rest

/-- Whether the document ends here. -/
def atEnd (c : Cursor) : Bool := c.rest.isEmpty || c.atMark

/-- Whether an indicator stands here as a token of its own. -/
def atIndicator (c : Cursor) (indicator : Char) : Bool :=
  match c.rest with
  | d :: rest => d == indicator && endsToken rest
  | [] => false

/-- The cursor after `n` characters of a token. -/
def past (c : Cursor) (n : Nat) : Cursor := ⟨c.rest.drop n, c.column + n, false⟩

end Cursor

/-- Passes over blanks, comments and line breaks.  At the start of a line that is not inside
brackets **a tab is no blank**, because it would leave the column open. -/
def skipFrom (inFlow : Bool) (tabs comment fresh : Bool) (column : Nat) : List Char → Cursor
  | [] => ⟨[], column, fresh⟩
  | c :: rest =>
    if c = '\n' then skipFrom inFlow inFlow false true 0 rest
    else if comment then skipFrom inFlow tabs true fresh (column + 1) rest
    else if c = '#' then skipFrom inFlow tabs true fresh (column + 1) rest
    else if c = ' ' || (c = '\t' && tabs) then skipFrom inFlow tabs false fresh (column + 1) rest
    else ⟨c :: rest, column, fresh⟩

/-- Moves to the next token. -/
def Cursor.skip (c : Cursor) (inFlow tabs : Bool) : Cursor :=
  skipFrom inFlow tabs false c.fresh c.column c.rest

/-- A scalar that was read, whether it took more than one line, and where its token ended. -/
structure Scanned where
  text : List Char
  lines : Bool
  after : Cursor

/-- What stands for blanks and line breaks between two parts of a scalar, in reverse. -/
def folded (blanks : List Char) : Nat → List Char
  | 0 => blanks
  | 1 => [' ']
  | n + 2 => List.replicate (n + 1) '\n'

/-! ## 1. Plain scalars -/

def flowIndicators : List Char := [',', '[', ']', '\x7b', '\x7d']

/-- Whether a plain scalar ends before a character. -/
def endsPlain (inFlow : Bool) (blankBefore : Bool) (c : Char) (rest : List Char) : Bool :=
  (c == '#' && blankBefore) || (c == ':' && endsToken rest) || (inFlow && flowIndicators.contains c)

/-- Reads on in a plain scalar.  `found` is in reverse; `blanks` and `breaks` came after it. -/
def plainFrom (level : Nat) (inFlow : Bool) (found blanks : List Char) (breaks : Nat) (lines : Bool)
    (column : Nat) : List Char → Option Scanned
  | [] => some ⟨found.reverse, lines, ⟨[], column, 0 < breaks⟩⟩
  | c :: rest =>
    let stop : Option Scanned := some ⟨found.reverse, lines, ⟨c :: rest, column, 0 < breaks⟩⟩
    if c = '\n' then plainFrom level inFlow found [] (breaks + 1) lines 0 rest
    else if isBlank c then
      if c = '\t' ∧ 0 < breaks ∧ column < level then none
      else plainFrom level inFlow found (if breaks = 0 then c :: blanks else []) breaks lines (column + 1) rest
    else if 0 < breaks ∧ ((!inFlow ∧ column < level) ∨ (column = 0 ∧ isMark (c :: rest))) then stop
    else if endsPlain inFlow (0 < breaks || !blanks.isEmpty) c rest then stop
    else if inFlow ∧ c = ':' ∧ rest.head?.any (fun d => d == '?' || flowIndicators.contains d) then none
    else
      plainFrom level inFlow (c :: (folded blanks breaks ++ found)) [] 0 (lines || 0 < breaks) (column + 1) rest

/-- Characters that no plain scalar begins with. -/
def indicators : List Char := "-?:,[]\x7b\x7d#&*!|>'\"%@".toList ++ [Char.ofNat 0x60]

/-- Whether a plain scalar begins here. -/
def beginsPlain (inFlow : Bool) : List Char → Bool
  | [] => false
  | c :: rest =>
    (!endsToken (c :: rest) && !indicators.contains c) ||
      (c == '-' && !(rest.head?.any isBlank)) ||
      (!inFlow && (c == '?' || c == ':') && !endsToken rest)

/-- Reads a plain scalar; its further lines have to stand at `level` or deeper. -/
def Cursor.plain (c : Cursor) (level : Nat) (inFlow : Bool) : Option Scanned :=
  if beginsPlain inFlow c.rest then plainFrom level inFlow [] [] 0 false c.column c.rest else none

/-! ## 2. Quoted scalars -/

/-- The character of a short escape. -/
def shortEscape? (c : Char) : Option Char :=
  match c with
  | '0' => some (Char.ofNat 0)
  | 'a' => some (Char.ofNat 7)
  | 'b' => some (Char.ofNat 8)
  | 't' | '\t' => some '\t'
  | 'n' => some '\n'
  | 'v' => some (Char.ofNat 11)
  | 'f' => some (Char.ofNat 12)
  | 'r' => some '\r'
  | 'e' => some (Char.ofNat 27)
  | ' ' => some ' '
  | '"' => some '"'
  | '/' => some '/'
  | '\\' => some '\\'
  | 'N' => some (Char.ofNat 0x85)
  | '_' => some (Char.ofNat 0xA0)
  | 'L' => some (Char.ofNat 0x2028)
  | 'P' => some (Char.ofNat 0x2029)
  | _ => none

/-- How many digits follow the letter of a long escape. -/
def longEscape? (c : Char) : Option Nat :=
  match c with
  | 'x' => some 2
  | 'u' => some 4
  | 'U' => some 8
  | _ => none

/-- Where the scan of a quoted scalar is. -/
inductive Quoting where
  | text
  /-- After a backslash. -/
  | escape
  /-- Inside a long escape: digits left, and the value so far. -/
  | digits (left value : Nat)

/-- Reads on in a scalar between double quotes.  `joined` says that a backslash took the last line
break away. -/
def doubleFrom (found blanks : List Char) (breaks : Nat) (joined lines : Bool) (column : Nat) (q : Quoting) :
    List Char → Option Scanned
  | [] => none
  | c :: rest =>
    let gap := if joined then List.replicate breaks '\n' else folded blanks breaks
    match q with
    | .escape =>
      if c = '\n' then doubleFrom (gap ++ found) [] 0 true true 0 .text rest
      else
        match shortEscape? c, longEscape? c with
        | some d, _ => doubleFrom (d :: (gap ++ found)) [] 0 false lines (column + 1) .text rest
        | none, some n => doubleFrom (gap ++ found) [] 0 false lines (column + 1) (.digits n 0) rest
        | none, none => none
    | .digits left value =>
      match digit? 16 c with
      | none => none
      | some d =>
        let value := value * 16 + d
        if left ≤ 1 then
          if value.isValidChar then
            doubleFrom (Char.ofNat value :: found) [] 0 false lines (column + 1) .text rest
          else none
        else doubleFrom found [] 0 false lines (column + 1) (.digits (left - 1) value) rest
    | .text =>
      if column = 0 ∧ isMark (c :: rest) then none
      else if c = '"' then some ⟨(gap ++ found).reverse, lines, ⟨rest, column + 1, false⟩⟩
      else if c = '\\' then doubleFrom found blanks breaks joined lines (column + 1) .escape rest
      else if c = '\n' then doubleFrom found [] (breaks + 1) joined true 0 .text rest
      else if isBlank c then
        doubleFrom found (if breaks = 0 ∧ !joined then c :: blanks else []) breaks joined lines (column + 1) .text rest
      else doubleFrom (c :: (gap ++ found)) [] 0 false lines (column + 1) .text rest

/-- Reads on in a scalar between single quotes; `paired` says that a quote came just before, which
ends the scalar unless another follows. -/
def singleFrom (found blanks : List Char) (breaks : Nat) (paired lines : Bool) (column : Nat) :
    List Char → Option Scanned
  | [] => if paired then some ⟨(folded blanks breaks ++ found).reverse, lines, ⟨[], column, false⟩⟩ else none
  | c :: rest =>
    if paired then
      if c = '\'' then singleFrom ('\'' :: (folded blanks breaks ++ found)) [] 0 false lines (column + 1) rest
      else some ⟨(folded blanks breaks ++ found).reverse, lines, ⟨c :: rest, column, false⟩⟩
    else if column = 0 ∧ isMark (c :: rest) then none
    else if c = '\'' then singleFrom found blanks breaks true lines (column + 1) rest
    else if c = '\n' then singleFrom found [] (breaks + 1) false true 0 rest
    else if isBlank c then
      singleFrom found (if breaks = 0 then c :: blanks else []) breaks false lines (column + 1) rest
    else singleFrom (c :: (folded blanks breaks ++ found)) [] 0 false lines (column + 1) rest

/-- Reads a quoted scalar. -/
def Cursor.quoted (c : Cursor) : Option Scanned :=
  match c.rest with
  | '"' :: rest => doubleFrom [] [] 0 false false (c.column + 1) .text rest
  | '\'' :: rest => singleFrom [] [] 0 false false (c.column + 1) rest
  | _ => none

/-! ## 3. Block scalars -/

/-- What becomes of the line breaks at the end of a block scalar. -/
inductive Chomping where
  | strip
  | clip
  | keep

/-- The head of a block scalar: how it ends, how deep it stands if that is given, and the lines
after it. -/
structure BlockHead where
  chomping : Chomping := .clip
  depth : Option Nat := none

/-- Reads the head up to the line break. -/
def blockHead (h : BlockHead) : List Char → Option (BlockHead × List Char)
  | [] => some (h, [])
  | '\n' :: rest => some (h, rest)
  | '+' :: rest => blockHead { h with chomping := .keep } rest
  | '-' :: rest => blockHead { h with chomping := .strip } rest
  | c :: rest =>
    if Text.isAsciiDigit c && c != '0' && h.depth.isNone then
      blockHead { h with depth := some (c.toNat - '0'.toNat) } rest
    else if isBlank c then
      match skipFrom false true false false 0 (rest.takeWhile (· != '\n')) with
      | ⟨[], _, _⟩ => some (h, (rest.dropWhile (· != '\n')).drop 1)
      | _ => none
    else none

/-- Number of blanks at the start of a line. -/
def depthOf (line : List Char) : Nat := (line.takeWhile (· == ' ')).length

/-- The depth of the first line that is not empty, or of a deeper empty one before it. -/
def contentDepth : List (List Char) → Nat
  | [] => 0
  | line :: rest =>
    if line.all (· == ' ') then max line.length (contentDepth rest) else depthOf line

/-- Whether a line of a block scalar ends it. -/
def endsBlock (depth : Nat) (line : List Char) : Bool := depthOf line < depth && !line.all (· == ' ')

/-- Joins the lines of a folded block scalar.  Lines that begin with a blank keep their breaks. -/
def foldLines : List (List Char) → List Char
  | [] => []
  | [line] => line
  | line :: next :: rest =>
    let kept (l : List Char) : Bool := l.isEmpty || l.head?.any isBlank
    let tail := foldLines (next :: rest)
    if line.isEmpty then '\n' :: tail
    else if kept line then line ++ '\n' :: tail
    else if next.isEmpty then
      -- the break before an empty line is folded away, unless a line that keeps its breaks follows
      let following := (rest.dropWhile List.isEmpty).head?
      if following.any kept then line ++ '\n' :: tail else line ++ tail
    else if kept next then line ++ '\n' :: tail
    else line ++ ' ' :: tail

/-- Reads a block scalar from its indicator; `level` is the least depth of its lines. -/
def Cursor.block (c : Cursor) (level : Nat) : Option Scanned :=
  match c.rest with
  | [] => none
  | indicator :: rest =>
    (blockHead {} rest).map fun (head, body) =>
      let all := Text.split '\n' body
      let depth := match head.depth with
        | some n => level - 1 + n
        | none => max (max (contentDepth all) level) 1
      let mine := all.takeWhile fun line => !(endsBlock depth line)
      let after := all.dropWhile fun line => !(endsBlock depth line)
      let texts := mine.map fun line => line.drop depth
      let full := (texts.reverse.dropWhile List.isEmpty).reverse
      let content := if indicator = '>' then foldLines full else Text.join "\n" full
      -- the last line of the text has a break only if another line follows it
      let empties := (texts.reverse.takeWhile List.isEmpty).length
      let breaks := if after.isEmpty then empties else empties + 1
      let ending := match head.chomping with
        | .strip => 0
        | .clip => if content.isEmpty then 0 else min breaks 1
        | .keep => breaks
      ⟨content ++ List.replicate ending '\n', true, ⟨Text.join "\n" after, 0, true⟩⟩

end CodeAudit.Yaml
