import CodeAudit.Text.Basic

/-!
# Selectors

A request names the quality analyses it wants; naming none asks for the usual battery.  A set of
selectors is held as the sublist of all selectors in their order, so **two requests that name the
same analyses have equal sets**, whatever the order and repetition of the names.
-/

namespace CodeAudit

inductive Selector where
  | duplicates
  | unused
  | unreachable
  | orphaned
  | emptyCatch
  | missingAwait
  | braceMismatch
  /-- Silent handlers, missing awaits and mismatched delimiters together. -/
  | vibe
  deriving DecidableEq, Repr, Inhabited

namespace Selector

def all : List Selector :=
  [.duplicates, .unused, .unreachable, .orphaned, .emptyCatch, .missingAwait, .braceMismatch, .vibe]

def name : Selector → String
  | .duplicates => "duplicates"
  | .unused => "unused"
  | .unreachable => "unreachable"
  | .orphaned => "orphaned"
  | .emptyCatch => "empty_catch"
  | .missingAwait => "missing_await"
  | .braceMismatch => "brace_mismatch"
  | .vibe => "vibe"

/-- All selectors, in the order of their names. -/
def byName : List Selector :=
  [.braceMismatch, .duplicates, .emptyCatch, .missingAwait, .orphaned, .unreachable, .unused, .vibe]

/-- The selector with a name; blanks around it do not count. -/
def ofName? (s : String) : Option Selector := all.find? fun v => v.name.toList == Text.trim s.toList

theorem mem_all (v : Selector) : v ∈ all := by cases v <;> decide

theorem mem_byName (v : Selector) : v ∈ byName := by cases v <;> decide

end Selector

/-- A set of selectors; the empty one stands for the usual battery. -/
structure SelectorSet where
  selected : List Selector
  deriving DecidableEq, Repr, Inhabited

namespace SelectorSet

/-- The set of the selectors of a list. -/
def ofList (vs : List Selector) : SelectorSet := ⟨Selector.all.filter vs.contains⟩

/-- The selectors of some names, or the first name that is none. -/
def namedBy : List String → Except String (List Selector)
  | [] => .ok []
  | name :: rest =>
    match Selector.ofName? name with
    | none => .error name
    | some v =>
      match namedBy rest with
      | .error unknown => .error unknown
      | .ok vs => .ok (v :: vs)

/-- The set asked for by names, or the first name that is none. -/
def parse (names : List String) : Except String SelectorSet := (namedBy names).map ofList

def isEmpty (s : SelectorSet) : Bool := s.selected.isEmpty

def contains (s : SelectorSet) (v : Selector) : Bool := s.selected.contains v

/-- Whether the analysis behind a selector runs.  **Orphans are no part of the usual battery**:
they are looked for when they, or duplicates, are asked for by name. -/
def runs (s : SelectorSet) : Selector → Bool
  | .duplicates => s.isEmpty || s.contains .duplicates
  | .unused => s.isEmpty || s.contains .unused
  | .unreachable => s.isEmpty || s.contains .unreachable
  | .emptyCatch => s.isEmpty || s.contains .emptyCatch || s.contains .vibe
  | .missingAwait => s.isEmpty || s.contains .missingAwait || s.contains .vibe
  | .braceMismatch => s.isEmpty || s.contains .braceMismatch || s.contains .vibe
  | .orphaned => s.contains .orphaned || s.contains .duplicates
  | .vibe => s.contains .vibe

/-- The names in their order, joined by commas. -/
def names (s : SelectorSet) : String :=
  String.intercalate "," ((Selector.byName.filter s.contains).map Selector.name)

end SelectorSet

end CodeAudit
