import CodeAudit.Text.Property

/-!
# Text as a list of characters

Source text is looked at as a `List Char`: every scan in the library is then a recursion on the
text itself.  Offsets into a source are counted in UTF-8 bytes, because that is what a syntax
tree carries, so cutting a text at an offset may fail (`slice`).

* `slice` cuts the text between two byte offsets, when both fall between characters.
* `lines` splits at line feeds; **a carriage return directly before the line feed belongs to the
  line's end, one elsewhere to its text**.
* `position` is the line and column of an offset; it counts the same line feeds.
-/

namespace CodeAudit.Text

/-! ## 1. Lengths and cuts in bytes -/

/-- Number of bytes of the UTF-8 form. -/
def utf8Length : List Char → Nat
  | [] => 0
  | c :: rest => c.utf8Size + utf8Length rest

@[simp] theorem utf8Length_nil : utf8Length [] = 0 := rfl

@[simp] theorem utf8Length_cons (c : Char) (s : List Char) :
    utf8Length (c :: s) = c.utf8Size + utf8Length s := rfl

@[simp] theorem utf8Length_append (s t : List Char) :
    utf8Length (s ++ t) = utf8Length s + utf8Length t := by
  induction s with
  | nil => simp
  | cons c s ih => simp [ih, Nat.add_assoc]

/-- The text from byte `n` on; `none` if `n` is past the end or inside a character. -/
def dropBytes : Nat → List Char → Option (List Char)
  | 0, s => some s
  | _ + 1, [] => none
  | n + 1, c :: rest => if c.utf8Size ≤ n + 1 then dropBytes (n + 1 - c.utf8Size) rest else none

/-- The first `n` bytes; `none` if the text is shorter or `n` is inside a character. -/
def takeBytes : Nat → List Char → Option (List Char)
  | 0, _ => some []
  | _ + 1, [] => none
  | n + 1, c :: rest =>
    if c.utf8Size ≤ n + 1 then (takeBytes (n + 1 - c.utf8Size) rest).map (c :: ·) else none

/-- The text between two byte offsets, both of them between characters. -/
def slice (start stop : Nat) (s : List Char) : Option (List Char) :=
  if start ≤ stop then (dropBytes start s).bind (takeBytes (stop - start)) else none

@[simp] theorem dropBytes_append (s t : List Char) : dropBytes (utf8Length s) (s ++ t) = some t := by
  induction s with
  | nil => cases t <;> rfl
  | cons c s ih =>
    have hpos : 0 < c.utf8Size := c.utf8Size_pos
    obtain ⟨n, hn⟩ : ∃ n, c.utf8Size + utf8Length s = n + 1 := ⟨c.utf8Size + utf8Length s - 1, by omega⟩
    rw [utf8Length_cons, hn, List.cons_append, dropBytes, if_pos (by omega)]
    rw [show n + 1 - c.utf8Size = utf8Length s by omega]
    exact ih

@[simp] theorem takeBytes_append (s t : List Char) : takeBytes (utf8Length s) (s ++ t) = some s := by
  induction s with
  | nil => cases t <;> rfl
  | cons c s ih =>
    have hpos : 0 < c.utf8Size := c.utf8Size_pos
    obtain ⟨n, hn⟩ : ∃ n, c.utf8Size + utf8Length s = n + 1 := ⟨c.utf8Size + utf8Length s - 1, by omega⟩
    rw [utf8Length_cons, hn, List.cons_append, takeBytes, if_pos (by omega)]
    rw [show n + 1 - c.utf8Size = utf8Length s by omega, ih]
    rfl

/-- Cutting out a middle part by its offsets gives that part. -/
theorem slice_append (p s q : List Char) :
    slice (utf8Length p) (utf8Length p + utf8Length s) (p ++ s ++ q) = some s := by
  simp [slice, List.append_assoc]

/-! ## 2. Lines and positions -/

/-- Pieces of `s` between separators, after the characters of `piece` (in reverse) that begin the
first of them. -/
def splitFrom (separator : Char) (piece : List Char) : List Char → List (List Char)
  | [] => [piece.reverse]
  | c :: rest =>
    if c = separator then piece.reverse :: splitFrom separator [] rest
    else splitFrom separator (c :: piece) rest

/-- The pieces of a text between separators; one more than there are separators. -/
def split (separator : Char) (s : List Char) : List (List Char) := splitFrom separator [] s

/-- Drops one carriage return from the end of a line that is held in reverse. -/
def dropReturn : List Char → List Char
  | '\r' :: rest => rest
  | line => line

/-- Lines of `s`, after the characters of `line` (in reverse) that begin the first of them. -/
def linesFrom (line : List Char) : List Char → List (List Char)
  | [] => if line.isEmpty then [] else [line.reverse]
  | c :: rest =>
    if c = '\n' then (dropReturn line).reverse :: linesFrom [] rest else linesFrom (c :: line) rest

/-- The lines of a text, without their ends.  A text that ends in a line feed has no empty line
after it. -/
def lines (s : List Char) : List (List Char) := linesFrom [] s

/-- The lines with their numbers, from one. -/
def numberedLines (s : List Char) : List (Nat × List Char) :=
  (lines s).zipIdx.map fun (line, i) => (i + 1, line)

/-- A place in a text: line feeds before it, and bytes since the last of them. -/
structure Position where
  row : Nat
  column : Nat
  deriving DecidableEq, Repr, Inhabited

/-- The position reached from `here` after `bytes` more bytes. -/
def positionFrom (here : Position) : Nat → List Char → Position
  | 0, _ => here
  | _ + 1, [] => here
  | n + 1, c :: rest =>
    if c = '\n' then positionFrom ⟨here.row + 1, 0⟩ n rest
    else positionFrom ⟨here.row, here.column + min c.utf8Size (n + 1)⟩ (n + 1 - c.utf8Size) rest

/-- The position of a byte offset. -/
def position (s : List Char) (offset : Nat) : Position := positionFrom ⟨0, 0⟩ offset s

/-! ## 3. Trimming, searching, splitting -/

/-- Drops characters of a class from the end. -/
def dropEndWhile (p : Char → Bool) (s : List Char) : List Char := (s.reverse.dropWhile p).reverse

def trimStart (s : List Char) : List Char := s.dropWhile isSpace

def trimEnd (s : List Char) : List Char := dropEndWhile isSpace s

/-- Drops the blanks at both ends. -/
def trim (s : List Char) : List Char := trimEnd (trimStart s)

/-- Whether the text begins with `word`. -/
def startsWith (word : String) (s : List Char) : Bool := word.toList.isPrefixOf s

/-- Whether the text ends with `word`. -/
def endsWith (word : String) (s : List Char) : Bool := word.toList.isSuffixOf s

/-- Whether `needle` occurs in the text. -/
def hasInfix (needle : List Char) : List Char → Bool
  | [] => needle.isEmpty
  | c :: rest => needle.isPrefixOf (c :: rest) || hasInfix needle rest

/-- Whether `word` occurs in the text. -/
def mentions (word : String) (s : List Char) : Bool := hasInfix word.toList s

/-- Whether one of the words occurs in the text. -/
def mentionsAny (words : List String) (s : List Char) : Bool := words.any fun w => mentions w s

/-- Number of occurrences of a character. -/
def occurrences (c : Char) (s : List Char) : Nat := s.countP (· == c)

/-- The text before the first `c`, or all of it. -/
def upTo (c : Char) (s : List Char) : List Char := s.takeWhile (· != c)

/-- The text after the last `c`, or all of it. -/
def afterLast (c : Char) (s : List Char) : List Char := (s.reverse.takeWhile (· != c)).reverse

/-- The text before the last `c`; `none` if there is none. -/
def beforeLast? (c : Char) (s : List Char) : Option (List Char) :=
  match s.reverse.dropWhile (· != c) with
  | [] => none
  | _ :: before => some before.reverse

/-- The text before the last occurrence of `word`; `none` if there is none. -/
def beforeLastWord? (word : String) : List Char → Option (List Char)
  | [] => if word.toList.isEmpty then some [] else none
  | c :: rest =>
    match beforeLastWord? word rest with
    | some before => some (c :: before)
    | none => if word.toList.isPrefixOf (c :: rest) then some [] else none

/-- Drops copies of a nonempty word from the front as often as it stands there. -/
def dropCopies (word : List Char) (h : word ≠ []) (s : List Char) : List Char :=
  if word.isPrefixOf s then dropCopies word h (s.drop word.length) else s
  termination_by s.length
  decreasing_by
    rename_i hp
    have hw : 0 < word.length := List.length_pos_iff.mpr h
    have hs : word.length ≤ s.length := (List.isPrefixOf_iff_prefix.mp hp).length_le
    simp only [List.length_drop]
    omega

/-- Joins texts with a separator. -/
def join (separator : String) (parts : List (List Char)) : List Char :=
  (parts.intersperse separator.toList).flatten

end CodeAudit.Text
