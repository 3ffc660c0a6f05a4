import CodeAudit.Text.Basic

/-!
# String literals and secrets in a line

* `stripLiterals` empties quoted literals, so that a search for words looks at code only.  A
  backtick opens no literal here, because the substitutions in a template are code.
* `redact` masks part of a text.  It keeps the first four characters, so that a reader can tell
  which secret is meant.
-/

namespace CodeAudit.Text

/-! ## 1. Emptying literals -/

/-- Where a scan stands: outside of literals, or inside one that a quote opened. -/
inductive Scan where
  | code
  | literal (quote : Char) (escaped : Bool)
  deriving DecidableEq, Repr

def isQuote (c : Char) : Bool := c == '"' || c == '\''

/-- Where a scan stands after a character, and whether the character is kept. -/
def Scan.step : Scan → Char → Scan × Bool
  | .code, c => (if isQuote c then .literal c false else .code, true)
  | .literal quote true, _ => (.literal quote false, false)
  | .literal quote false, c =>
    if c = '\\' then (.literal quote true, false)
    else if c = quote then (.code, true)
    else (.literal quote false, false)

/-- The text from a state of the scan on, with the contents of literals left out. -/
def stripFrom : Scan → List Char → List Char
  | _, [] => []
  | state, c :: rest =>
    let (state', kept) := state.step c
    if kept then c :: stripFrom state' rest else stripFrom state' rest

/-- The state of the scan after a text. -/
def scanEnd : Scan → List Char → Scan
  | state, [] => state
  | state, c :: rest => scanEnd (state.step c).1 rest

/-- A text with its quoted literals emptied. -/
def stripLiterals (s : List Char) : List Char := stripFrom .code s

/-- The scan of two texts one after the other. -/
theorem stripFrom_append (state : Scan) (s t : List Char) :
    stripFrom state (s ++ t) = stripFrom state s ++ stripFrom (scanEnd state s) t := by
  induction s generalizing state with
  | nil => rfl
  | cons c s ih => simp only [List.cons_append, stripFrom, scanEnd]; split <;> simp [ih]

/-! ## 2. Masking a secret -/

/-- The text with the bytes from `start` to `stop` masked after their first four characters; the
text itself if the two offsets cut no part out of it. -/
def redact (s : List Char) (start stop : Nat) : List Char :=
  if stop ≤ start then s
  else
    match takeBytes start s, slice start stop s, dropBytes stop s with
    | some before, some secret, some after => before ++ secret.take 4 ++ "****".toList ++ after
    | _, _, _ => s

/-- **Masking a middle part keeps what is around it and its first four characters.** -/
theorem redact_append (p s q : List Char) (h : s ≠ []) :
    redact (p ++ s ++ q) (utf8Length p) (utf8Length p + utf8Length s) =
      p ++ s.take 4 ++ "****".toList ++ q := by
  have hpos : 0 < utf8Length s := by
    cases s with
    | nil => exact absurd rfl h
    | cons c s => have := c.utf8Size_pos; simp; omega
  have h1 : takeBytes (utf8Length p) (p ++ s ++ q) = some p := by
    rw [List.append_assoc]; exact takeBytes_append p (s ++ q)
  have h3 : dropBytes (utf8Length p + utf8Length s) (p ++ s ++ q) = some q := by
    rw [← utf8Length_append]; exact dropBytes_append (p ++ s) q
  rw [redact, if_neg (by omega), h1, slice_append, h3]

/-! ## 3. Comments -/

/-- Whether a line begins like a comment. -/
def isCommentLine (line : List Char) : Bool :=
  let s := trimStart line
  startsWith "//" s || startsWith "#" s || startsWith "/*" s || startsWith "*" s

end CodeAudit.Text
