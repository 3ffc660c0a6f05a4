import CodeAudit.Text.Basic

/-!
# Patterns over text

A pattern describes pieces of text: characters of a class, places such as the edge of a word,
and sequence, choice, repetition and grouping of other patterns.  The piece that counts is the
*leftmost* one, and of those that start there the *first* one in the order in which choices are
written, a repetition trying more copies before fewer.

The matcher recurses on the pattern and passes on what is still to be matched as a continuation, so
a proof opens one constructor at a time.  A repetition without an upper bound tries at most as many
copies as characters are left: **a copy that takes no character adds nothing to what can be
reached**, so no match is lost.
-/

namespace CodeAudit

/-- What a piece of text has to look like. -/
inductive Pattern where
  /-- The empty piece. -/
  | empty
  /-- One character of a class. -/
  | one (accepts : Char → Bool)
  /-- Where the text begins. -/
  | textStart
  /-- Where the text ends. -/
  | textEnd
  /-- Where a word begins or ends. -/
  | wordEdge
  | seq (first second : Pattern)
  | alt (first second : Pattern)
  /-- At least `least` copies, at most `most` if there is a bound, as many as possible. -/
  | times (least : Nat) (most : Option Nat) (body : Pattern)
  /-- The same pieces as the body; the piece is recorded under `index`. -/
  | group (index : Nat) (body : Pattern)

namespace Pattern

/-! ## 1. Where a match stands -/

/-- A place in a text: the character before it, the text after it, and its byte offset. -/
structure Point where
  before : Option Char
  rest : List Char
  offset : Nat

namespace Point

/-- The place after the next character `c`. -/
def past (p : Point) (c : Char) (rest : List Char) : Point := ⟨some c, rest, p.offset + c.utf8Size⟩

/-- Whether exactly one of the two neighbours is a word character. -/
def atWordEdge (p : Point) : Bool :=
  (p.before.any Text.isWord) != (p.rest.head?.any Text.isWord)

end Point

/-- A recorded piece: group and byte offsets. -/
structure Capture where
  index : Nat
  start : Nat
  stop : Nat
  deriving DecidableEq, Repr

/-- What is still to be done after a pattern has matched. -/
abbrev Continuation (α : Type) := Point → List Capture → Option α

/-- How a pattern is tried at a place, with the pieces recorded so far. -/
abbrev Matcher (α : Type) := Point → List Capture → Continuation α → Option α

/-! ## 2. The matcher -/

section Repetition

variable {α : Type}

/-- Exactly `n` copies of a step. -/
def exactly (step : Matcher α) : Nat → Matcher α
  | 0, p, cs, k => k p cs
  | n + 1, p, cs, k => step p cs fun p' cs' => exactly step n p' cs' k

/-- At most `n` copies of a step, more before fewer. -/
def atMost (step : Matcher α) : Nat → Matcher α
  | 0, p, cs, k => k p cs
  | n + 1, p, cs, k =>
    match step p cs fun p' cs' => atMost step n p' cs' k with
    | some found => some found
    | none => k p cs

end Repetition

/-- Tries a pattern at a place and goes on with `k` wherever it can end, until `k` succeeds. -/
def run {α : Type} : Pattern → Matcher α
  | empty, p, cs, k => k p cs
  | one accepts, p, cs, k =>
    match p.rest with
    | [] => none
    | c :: rest => if accepts c then k (p.past c rest) cs else none
  | textStart, p, cs, k => if p.before.isNone then k p cs else none
  | textEnd, p, cs, k => if p.rest.isEmpty then k p cs else none
  | wordEdge, p, cs, k => if p.atWordEdge then k p cs else none
  | seq first second, p, cs, k => first.run p cs fun p' cs' => second.run p' cs' k
  | alt first second, p, cs, k =>
    match first.run p cs k with
    | some found => some found
    | none => second.run p cs k
  | times least most body, p, cs, k =>
    exactly body.run least p cs fun p' cs' =>
      atMost body.run (match most with | some m => m - least | none => p'.rest.length) p' cs' k
  | group index body, p, cs, k =>
    body.run p cs fun p' cs' => k p' (⟨index, p.offset, p'.offset⟩ :: cs')

/-- A match: its byte offsets and the pieces of its groups, the latest first. -/
structure Match where
  start : Nat
  stop : Nat
  captures : List Capture
  deriving DecidableEq, Repr

/-- The piece of group `index`, if that group took part. -/
def Match.capture? (m : Match) (index : Nat) : Option Capture :=
  m.captures.find? (·.index == index)

/-- The first match that starts at a place. -/
def matchAt (pat : Pattern) (p : Point) : Option Match :=
  pat.run p [] fun p' cs => some ⟨p.offset, p'.offset, cs⟩

/-- The leftmost match in the text from a place on. -/
def findFrom (pat : Pattern) (before : Option Char) (offset : Nat) : List Char → Option Match
  | [] => pat.matchAt ⟨before, [], offset⟩
  | c :: rest =>
    match pat.matchAt ⟨before, c :: rest, offset⟩ with
    | some m => some m
    | none => findFrom pat (some c) (offset + c.utf8Size) rest

/-- The leftmost match in a text. -/
def find? (pat : Pattern) (text : List Char) : Option Match := findFrom pat none 0 text

/-- Whether the pattern matches somewhere in a text. -/
def occursIn (pat : Pattern) (text : List Char) : Bool := (pat.find? text).isSome

/-! ## 3. One character -/

section One

variable {α : Type} (accepts : Char → Bool) (before : Option Char) (offset : Nat) (cs : List Capture)
  (k : Continuation α)

@[simp] theorem run_one_nil : (one accepts).run ⟨before, [], offset⟩ cs k = none := rfl

@[simp] theorem run_one_cons (c : Char) (rest : List Char) :
    (one accepts).run ⟨before, c :: rest, offset⟩ cs k =
      if accepts c then k ⟨some c, rest, offset + c.utf8Size⟩ cs else none := rfl

end One

end Pattern

end CodeAudit
