import CodeAudit.Text.Basic

/-!
# Globs

A glob describes whole paths: `*` is any run of characters and `?` any one, **slashes included**;
`**` between slashes is any number of directories; `[…]` is a class, `{a,b}` a choice that may
nest, and a backslash takes the next character as it stands.

Paths are matched byte by byte, so that `?` and a class take one byte of a character that has
several.

* `Glob.parse` reads a glob or says what is wrong with it.
* `Glob.accepts` says whether a path matches.
-/

namespace CodeAudit

/-- What can be wrong with a glob. -/
inductive GlobError where
  | unclosedClass
  | invalidRange (low high : Char)
  | unopenedChoice
  | unclosedChoice
  | danglingEscape
  deriving DecidableEq, Repr

/-- The reason in words. -/
def GlobError.reason : GlobError → String
  | .unclosedClass => "unclosed character class; missing ']'"
  | .invalidRange low high => s!"invalid range; '{low}' > '{high}'"
  | .unopenedChoice => "unopened alternate group; missing '\x7b' (maybe escape '\x7d' with '[\x7d]'?)"
  | .unclosedChoice => "unclosed alternate group; missing '\x7d' (maybe escape '\x7b' with '[\x7b]'?)"
  | .danglingEscape => "dangling '\\'"

/-- The reason with the glob it is about. -/
def GlobError.message (glob : String) (e : GlobError) : String :=
  s!"error parsing glob '{glob}': " ++ e.reason

namespace Glob

/-! ## 1. Tokens and what they match -/

inductive Token where
  | literal (c : Char)
  /-- `?`: one byte. -/
  | any
  /-- `*`: any bytes. -/
  | many
  /-- `**/` at the front: any directories, or none. -/
  | leading
  /-- `/**` at the end: anything below. -/
  | trailing
  /-- `/**/`: one slash, or directories between two. -/
  | between
  | set (negated : Bool) (ranges : List (Char × Char))
  | choice (branches : List (List Token))
  deriving Inhabited

def bytes (s : List Char) : List UInt8 := (String.ofList s).toUTF8.toList

def slash : UInt8 := 47

/-- Whether some tail of the text, the whole and the empty one included, can be matched on. -/
def someTail (k : List UInt8 → Bool) : List UInt8 → Bool
  | [] => k []
  | b :: rest => k (b :: rest) || someTail k rest

/-- Whether the text after some slash can be matched on. -/
def afterSlash (k : List UInt8 → Bool) : List UInt8 → Bool
  | [] => false
  | b :: rest => (b == slash && k rest) || afterSlash k rest

/-- The byte ranges of a class.  Of a character with several bytes the inner bytes stand for
themselves, and a range runs from the last byte of its low end to the first of its high end. -/
def byteRanges : Char × Char → List (UInt8 × UInt8)
  | (low, high) =>
    let lows := bytes [low]
    if low = high then lows.map fun b => (b, b)
    else
      let highs := bytes [high]
      (lows.dropLast.map fun b => (b, b)) ++
        [(lows.getLast?.getD 0, highs.head?.getD 0)] ++ (highs.tail.map fun b => (b, b))

/-- Whether a byte belongs to a class. -/
def inSet (negated : Bool) (ranges : List (Char × Char)) (b : UInt8) : Bool :=
  ((ranges.flatMap byteRanges).any fun r => r.1 ≤ b && b ≤ r.2) != negated

mutual

/-- Whether a token stands for nothing at all: a choice with only such branches. -/
def Token.void : Token → Bool
  | .choice branches => allVoid branches
  | _ => false

def allVoid : List (List Token) → Bool
  | [] => true
  | branch :: rest => rowVoid branch && allVoid rest

def rowVoid : List Token → Bool
  | [] => true
  | t :: ts => t.void && rowVoid ts

end

mutual

/-- Whether a token matches the front of a text such that `k` accepts what follows. -/
def Token.run : Token → List UInt8 → (List UInt8 → Bool) → Bool
  | .literal c, s, k => (bytes [c]).isPrefixOf s && k (s.drop (bytes [c]).length)
  | .any, s, k => match s with | [] => false | _ :: rest => k rest
  | .many, s, k => someTail k s
  | .leading, s, k => k s || afterSlash k s
  | .trailing, s, k => match s with | [] => false | b :: rest => b == slash && someTail k rest
  | .between, s, k =>
    match s with | [] => false | b :: rest => b == slash && (k rest || afterSlash k rest)
  | .set negated ranges, s, k =>
    match s with | [] => false | b :: rest => inSet negated ranges b && k rest
  | .choice branches, s, k => if allVoid branches then k s else runAny branches s k

/-- Whether one of the branches that stand for something matches. -/
def runAny : List (List Token) → List UInt8 → (List UInt8 → Bool) → Bool
  | [], _, _ => false
  | branch :: rest, s, k => (!rowVoid branch && runRow branch s k) || runAny rest s k

/-- Whether the tokens match one after another. -/
def runRow : List Token → List UInt8 → (List UInt8 → Bool) → Bool
  | [], s, k => k s
  | t :: ts, s, k => t.run s fun rest => runRow ts rest k

end

end Glob

/-- A glob that has been read. -/
structure Glob where
  tokens : List Glob.Token
  deriving Inhabited

namespace Glob

/-- The text of tokens that all stand for themselves. -/
def plainText? : List Token → Option (List Char)
  | [] => some []
  | .literal c :: ts => (plainText? ts).map (c :: ·)
  | _ :: _ => none

/-- Whether a glob ends in a point that it looks for in the name of a file.  One that spells out a
path, or the end of a path beyond a bare name, compares texts and looks at no name. -/
def asksForName (tokens : List Token) : Bool :=
  (match tokens.getLast? with | some (.literal c) => c == '.' | _ => false) &&
    match tokens with
    | .many :: rest | .leading :: .many :: rest => (plainText? rest).all (· == ['.'])
    | .leading :: rest => (plainText? rest).all (!·.contains '/')
    | _ => (plainText? tokens).isNone

/-- Whether a path matches as a whole.  A lone `**` matches every path.  **A path that ends in a
point has no file name**, so no glob that asks for one accepts it. -/
def accepts (g : Glob) (path : String) : Bool :=
  match g.tokens with
  | [.leading] => true
  | tokens =>
    runRow tokens path.toUTF8.toList List.isEmpty && !(path.endsWith "." && asksForName tokens)

/-! ## 2. Reading -/

/-- A choice that is not closed yet: the tokens before it and its finished branches. -/
structure OpenChoice where
  outer : List Token
  branches : List (List Token)

/-- What has been read; tokens are held in reverse. -/
structure Draft where
  current : List Token
  choices : List OpenChoice

def Draft.push (d : Draft) (t : Token) : Draft := { d with current := t :: d.current }

/-- Closes the innermost choice. -/
def Draft.close (d : Draft) : Except GlobError Draft :=
  match d.choices with
  | [] => .error .unopenedChoice
  | c :: rest => .ok ⟨.choice (c.branches ++ [d.current.reverse]) :: c.outer, rest⟩

/-- A comma ends a branch; outside of a choice it is a character like others. -/
def Draft.comma (d : Draft) : Draft :=
  match d.choices with
  | [] => d.push (.literal ',')
  | c :: rest => ⟨[], ⟨c.outer, c.branches ++ [d.current.reverse]⟩ :: rest⟩

/-- Puts `/**` or `/**/` in place of the slash before it; two in a row count once. -/
def Draft.recursive (d : Draft) (t : Token) : Draft :=
  match d.current with
  | .leading :: rest => { d with current := .leading :: rest }
  | .trailing :: rest => { d with current := .trailing :: rest }
  | _ :: rest => { d with current := t :: rest }
  | [] => d.push t

/-- A class that is not closed yet; ranges are held in reverse. -/
structure OpenSet where
  negated : Bool
  ranges : List (Char × Char)
  first : Bool
  inRange : Bool

/-- One more character of a class, other than the bracket that closes it. -/
def OpenSet.add (o : OpenSet) (c : Char) : Except GlobError OpenSet :=
  if c = '-' ∧ o.first = false ∧ o.inRange = false then .ok { o with inRange := true }
  else
    match o.inRange, o.ranges with
    | true, (low, _) :: rest =>
      if c < low then .error (.invalidRange low c)
      else .ok { o with ranges := (low, c) :: rest, first := false, inRange := false }
    | _, ranges => .ok { o with ranges := (c, c) :: ranges, first := false, inRange := false }

/-- The class, closed; a dash left over stands for itself. -/
def OpenSet.token (o : OpenSet) : Token :=
  .set o.negated (if o.inRange then ('-', '-') :: o.ranges else o.ranges).reverse

/-- What two stars between `prev` and `next` add, and whether they take the slash after them.
**They stand for directories only as a whole component**; elsewhere they are two plain stars. -/
def Draft.stars (d : Draft) (prev next : Option Char) : Draft × Bool :=
  let plain := (d.push .many).push .many
  let inChoice := !d.choices.isEmpty
  if d.current.isEmpty then
    match next with
    | none => (d.push .leading, false)
    | some '/' => (d.push .leading, true)
    | some _ => (plain, false)
  else if prev == some '/' || (inChoice && (prev == some ',' || prev == some '\x7b')) then
    match next with
    | none => (d.recursive .trailing, false)
    | some '/' => (d.recursive .between, true)
    | some c => (if inChoice && (c == ',' || c == '\x7d') then d.recursive .trailing else plain, false)
  else (plain, false)

mutual

/-- Reads on after the character `prev`. -/
def readFrom (prev : Option Char) (d : Draft) : List Char → Except GlobError Draft
  | [] => .ok d
  | '*' :: '*' :: [] => .ok (d.stars prev none).1
  | '*' :: '*' :: next :: rest =>
    let (d', takesSlash) := d.stars prev (some next)
    if takesSlash then readFrom (some next) d' rest else readFrom (some '*') d' (next :: rest)
  | '*' :: rest => readFrom (some '*') (d.push .many) rest
  | '?' :: rest => readFrom (some '?') (d.push .any) rest
  | '[' :: '!' :: rest => readSet d ⟨true, [], true, false⟩ rest
  | '[' :: '^' :: rest => readSet d ⟨true, [], true, false⟩ rest
  | '[' :: rest => readSet d ⟨false, [], true, false⟩ rest
  | '\\' :: c :: rest => readFrom (some c) (d.push (.literal c)) rest
  | ['\\'] => .error .danglingEscape
  | c :: rest =>
    if c = '\x7b' then readFrom (some c) ⟨[], ⟨d.current, []⟩ :: d.choices⟩ rest
    else if c = '\x7d' then
      match d.close with
      | .error e => .error e
      | .ok d => readFrom (some c) d rest
    else if c = ',' then readFrom (some c) d.comma rest
    else readFrom (some c) (d.push (.literal c)) rest

/-- Reads on inside a class. -/
def readSet (d : Draft) (o : OpenSet) : List Char → Except GlobError Draft
  | [] => .error .unclosedClass
  | c :: rest =>
    if c = ']' ∧ o.first = false then readFrom (some ']') (d.push o.token) rest
    else
      match o.add c with
      | .error e => .error e
      | .ok o => readSet d o rest

end

/-- Reads a glob. -/
def parse (s : String) : Except GlobError Glob :=
  match readFrom none ⟨[], []⟩ s.toList with
  | .error e => .error e
  | .ok ⟨tokens, []⟩ => .ok ⟨tokens.reverse⟩
  | .ok _ => .error .unclosedChoice

end Glob

end CodeAudit
